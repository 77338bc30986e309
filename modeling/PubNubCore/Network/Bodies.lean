import PubNubCore.Network.Headers

/-!
# The body of a response

Behind the empty line the state machine reads a body, by its length or in chunks, in reads that end
where a `recv` or the receive buffer ends.  A read may end inside a chunk, inside the two characters
behind it, or inside the line with the length of the next; one countdown covers the data of a chunk
and what trails it.

`BodyRun` is a context with a ledger of what it has been given since the empty line and of the reply
with which `finish` has been called.  `chunked_reply` and `counted_reply` say that the reply is the
body, in whatever pieces it has come, and `Pb.isSome_pass_of_readsBody` that no assertion of the
platform layer fails on the way.
-/

namespace PubNub

/-! ## The chunked format -/

/-- The line in front of a chunk, without the end of the line: a length and an extension. -/
structure ChunkHead where
  size : Bytes
  ext : Bytes := []
  size_ne_nil : size ≠ []
  isHex : IsHex size
  ends : EndsNumber ext
  oneLine : 10 ∉ ext

namespace ChunkHead

def length (h : ChunkHead) : Nat := hexValue h.size

def bytes (h : ChunkHead) : Bytes := h.size ++ h.ext ++ [13, 10]

end ChunkHead

/-- A chunk with data in it. -/
structure Chunk where
  head : ChunkHead
  data : Bytes
  length_data : data.length = head.length
  pos : 0 < data.length

/-- The data and what trails it. -/
def Chunk.payload (c : Chunk) : Bytes := c.data ++ [13, 10]

/-- The data of chunks. -/
def chunkData (cs : List Chunk) : Bytes := cs.flatMap (·.data)

/-- Chunks and the line of the last one, which has none. -/
def chunkBytes (cs : List Chunk) (last : ChunkHead) : Bytes :=
  cs.flatMap (fun c => c.head.bytes ++ c.payload) ++ last.bytes

/-- A body in chunks, up to and including the line of length zero. -/
structure ChunkedBody where
  chunks : List Chunk
  last : ChunkHead
  length_last : last.length = 0

namespace ChunkedBody

def bytes (b : ChunkedBody) : Bytes := chunkBytes b.chunks b.last

def data (b : ChunkedBody) : Bytes := chunkData b.chunks

end ChunkedBody

section Format

variable {h : ChunkHead} {c : Chunk} {cs : List Chunk} {s t line rest : Bytes}

lemma isHex_ne_newline (hs : IsHex s) : 10 ∉ s := by
  intro hmem
  have hnone := digitValue_special 10 (.inl (by decide))
  have hsome := hs 10 hmem
  rw [hnone] at hsome
  cases hsome

lemma ChunkHead.endsNumber (h : ChunkHead) (t : Bytes) : EndsNumber (h.ext ++ 13 :: t) := by
  have hends := h.ends
  cases hext : h.ext with
  | nil => exact ⟨by decide, by decide⟩
  | cons c ext =>
      rw [hext] at hends
      exact hends

/-- What the line is taken for, whatever is behind it. -/
lemma ChunkHead.strtoul_bytes (h : ChunkHead) (hlt : h.length < 2 ^ 64) (t : Bytes) :
    strtoul (h.bytes ++ t) = h.length := by
  have htext : h.bytes ++ t = h.size ++ (h.ext ++ 13 :: (10 :: t)) := by
    simp only [bytes, List.append_assoc, List.cons_append, List.nil_append]
  rw [htext]
  exact strtoul_of_isHex h.size_ne_nil h.isHex (h.endsNumber _) hlt

/-- The first end of a line is in one place. -/
lemma eq_of_first_newline {u : Bytes} (hs : 10 ∉ s) (hu : 10 ∉ u) (h : s ++ 10 :: rest = u ++ 10 :: t) :
    s = u ∧ rest = t := by
  have htake {v r : Bytes} (hv : 10 ∉ v) : (v ++ 10 :: r).takeWhile (· != 10) = v := by
    have hall : ∀ c ∈ v, (c != 10) = true := fun c hc => bne_iff_ne.mpr fun heq => hv (heq ▸ hc)
    rw [List.takeWhile_append_of_pos hall, List.takeWhile_cons_of_neg (by decide), List.append_nil]
  obtain rfl : s = u := by rw [← htake hs (r := rest), h, htake hu]
  exact ⟨rfl, (List.cons.inj (List.append_cancel_left h)).2⟩

/-- The line ends where it should. -/
lemma ChunkHead.eq_of_line (hline : 10 ∉ line) (heq : line ++ [10] ++ rest = h.bytes ++ t) :
    line ++ [10] = h.bytes ∧ rest = t := by
  have hhead : 10 ∉ h.size ++ h.ext ++ [13] := by
    simp only [List.mem_append, not_or]
    exact ⟨⟨isHex_ne_newline h.isHex, h.oneLine⟩, by decide⟩
  have htext : line ++ 10 :: rest = (h.size ++ h.ext ++ [13]) ++ 10 :: t := by
    rw [bytes] at heq
    simpa only [List.append_assoc, List.cons_append, List.nil_append] using heq
  obtain ⟨hl, hr⟩ := eq_of_first_newline hline hhead htext
  refine ⟨?_, hr⟩
  rw [hl, bytes]
  simp only [List.append_assoc, List.cons_append, List.nil_append]

@[simp] lemma chunkData_nil : chunkData [] = [] := rfl

lemma chunkData_append (cs ds : List Chunk) : chunkData (cs ++ ds) = chunkData cs ++ chunkData ds :=
  List.flatMap_append

lemma chunkData_cons (c : Chunk) (cs : List Chunk) : chunkData (c :: cs) = c.data ++ chunkData cs := rfl

lemma chunkData_snoc (cs : List Chunk) (c : Chunk) : chunkData (cs ++ [c]) = chunkData cs ++ c.data := by
  rw [chunkData_append]
  exact congrArg _ (List.append_nil c.data)

lemma chunkBytes_cons (c : Chunk) (cs : List Chunk) (last : ChunkHead) :
    chunkBytes (c :: cs) last = c.head.bytes ++ (c.payload ++ chunkBytes cs last) := by
  simp only [chunkBytes, List.flatMap_cons, List.append_assoc]

/-- A part of a chunk, with what trails it. -/
lemma Chunk.take_payload (c : Chunk) {k : Nat} (hn : s.length ≤ c.payload.length - k)
    (h : s ++ t = c.payload.drop k ++ rest) :
    s = (c.payload.drop k).take s.length ∧ t = c.payload.drop (k + s.length) ++ rest := by
  have hle : s.length ≤ (c.payload.drop k).length := by
    rw [List.length_drop]
    exact hn
  have htake := congrArg (List.take s.length) h
  rw [List.take_left, List.take_append_of_le_length hle] at htake
  refine ⟨htake, ?_⟩
  have hdrop := congrArg (List.drop s.length) h
  rw [List.drop_left, List.drop_append_of_le_length hle, List.drop_drop] at hdrop
  exact hdrop

lemma Chunk.length_payload (c : Chunk) : c.payload.length = c.data.length + 2 := by
  rw [payload, List.length_append]
  rfl

/-- Without what trails the chunk. -/
lemma Chunk.take_data (c : Chunk) (k n : Nat) :
    ((c.payload.drop k).take n).take (c.payload.length - k - 2) = (c.data.drop k).take n := by
  rw [length_payload]
  by_cases hk : k ≤ c.data.length
  · have hlen : (c.data.drop k).length = c.data.length - k := List.length_drop
    rw [payload, List.drop_append_of_le_length hk, List.take_take, List.take_append_of_le_length
      (by rw [hlen]; omega), List.take_eq_take_iff, hlen]
    omega
  · rw [List.drop_eq_nil_of_le (by omega : c.data.length ≤ k), show c.data.length + 2 - k - 2 = 0 by omega,
      List.take_zero, List.take_nil]

end Format

/-! ## One read of a number of bytes -/

namespace Pal

variable {p p' : Pal} {a : RecvAnswer} {rslt : PubnubRes} {n : Nat}

/-- A read of a number of bytes is going on. -/
structure ReadsNumber (p : Pal) : Prop where
  reading : p.sockState = .read
  tiled : p.buf.Tiled
  more : 0 < p.len
  room : p.buf.unreadlen = 0 → 0 < p.buf.left

/-- How a call of `pbpal_read_status` ends: with all that has been asked for or with as much as there
    is room for, or without an end, or with an error.  `asked` is what the read began with. -/
inductive NumberRead (asked : Nat) (p' : Pal) : PubnubRes → Prop
  | ended (hs : p'.sockState = .none) (hsum : p'.buf.ptr + p'.len = asked) (hpos : 0 < p'.buf.ptr) :
      NumberRead asked p' .ok
  | goesOn (hr : p'.ReadsNumber) (hsum : p'.buf.ptr + p'.len = asked) : NumberRead asked p' .inProgress
  | failed {rslt : PubnubRes} (hok : rslt ≠ .ok) (hgo : rslt ≠ .inProgress) :
      NumberRead asked p' rslt

lemma numberRead_handleSocketError (h : p.ReadsNumber) (e : SocketError) :
    NumberRead (p.buf.ptr + p.len) (p.handleSocketError e).1 (p.handleSocketError e).2 := by
  cases e with
  | wouldBlock => exact .goesOn h rfl
  | timedOut =>
      simp only [handleSocketError, h.reading]
      exact .failed (by decide) (by decide)
  | blockedTooLong | closed | other =>
      simp only [handleSocketError]
      exact .failed (by decide) (by decide)

lemma numberRead_tookBytes (ht : p.buf.Tiled) (hst : p.sockState = .read) (hpos : 0 < n)
    (hn : n ≤ p.len) (hu : n ≤ p.buf.unreadlen) :
    NumberRead (p.buf.ptr + p.len) (p.tookBytes n).1 (p.tookBytes n).2 := by
  have hsum : p.buf.ptr + n + (p.len - n) = p.buf.ptr + p.len := by omega
  rw [tookBytes]
  dsimp only
  split
  · exact .ended rfl hsum (Nat.add_pos_right _ hpos)
  · rename_i hmore
    rw [not_or] at hmore
    refine .goesOn ⟨hst, ReadWindow.tiled_advance ht hu, Nat.pos_of_ne_zero hmore.1, fun _ => ?_⟩ hsum
    exact Nat.pos_of_ne_zero hmore.2

/-- **Reading a number of bytes.** -/
lemma exists_readStatus (h : p.ReadsNumber) (a : RecvAnswer) :
    ∃ p' rslt, p.readStatus a = some (p', rslt) ∧ NumberRead (p.buf.ptr + p.len) p' rslt := by
  have hmore := h.more
  rw [readStatus, if_neg (not_not.mpr h.reading)]
  split
  · rename_i hu
    have hleft := h.room hu
    dsimp only
    rw [if_neg (by omega)]
    split
    · exact ⟨_, _, rfl, numberRead_handleSocketError h _⟩
    · rename_i hsome
      refine ⟨_, _, rfl, ?_⟩
      have hlen := p.length_delivers_le (min p.len p.buf.left) a
      have hfits : (p.delivers (min p.len p.buf.left) a).length ≤ p.buf.left := by omega
      have hfill := ReadWindow.tiled_fill h.tiled hu hfits
      exact numberRead_tookBytes (p := { p.deliver _ with buf := p.buf.fill _ }) hfill h.reading
        (List.length_pos_of_ne_nil hsome) (by change _ ≤ p.len; omega) le_rfl
  · rename_i hu
    refine ⟨_, _, rfl, numberRead_tookBytes h.tiled h.reading (by omega) (min_le_right _ _)
      (min_le_left _ _)⟩

/-- The start of a read of a number of bytes. -/
lemma readsNumber_startRead (ht : p.buf.Tiled) (hn : 0 < n) (hlt : n < 2 ^ 32)
    (h : p.startRead n = some p') : p'.ReadsNumber ∧ p'.len = n := by
  rw [startRead, Option.ite_none_right_eq_some] at h
  obtain ⟨-, rfl⟩ := h.imp_right Option.some.inj
  have hlen : n % 2 ^ 32 = n := Nat.mod_eq_of_lt hlt
  refine ⟨⟨rfl, ReadWindow.tiled_rewind ht, by rw [hlen]; exact hn, fun hu => ?_⟩, hlen⟩
  have hwhole := ReadWindow.tiled_rewind ht
  rw [ReadWindow.Tiled] at hwhole
  change 0 < p.buf.rewind.left
  have hnone : p.buf.rewind.unreadlen = 0 := hu
  rw [hnone, ReadWindow.ptr_rewind] at hwhole
  rw [show p.buf.rewind.left = pubnubBufMaxlen by omega]
  decide

end Pal

/-! ## The ledger of the body -/

/-- The states that read a body in chunks. -/
def PbState.readsChunks : PbState → Bool
  | .rxChunkLen | .rxChunkLenLine | .rxBodyChunk | .rxBodyChunkWait => true
  | _ => false

namespace Pb

variable (pb : Pb) (a : Answer)

/-- What `recv` delivers in a pass that reads the body. -/
def bodyDelivered : Bytes :=
  let read :=
    match pb.state with
    | .rxBodyWait | .rxBodyChunkWait => pb.pal.readStatus a.recv
    | .rxChunkLenLine => pb.pal.lineReadStatus a.recv
    | _ => none
  match read with
  | some (pal, _) => pb.pal.incoming.take (pb.pal.incoming.length - pal.incoming.length)
  | none => []

/-- What has been copied to the reply. -/
def replySoFar : Bytes := (pb.httpReply.getD []).take pb.httpBufLen

/-- The reply with which a pass that reads the body calls `finish`. -/
def finishedReply : Option Bytes :=
  match pb.state with
  | .rxBody => if pb.httpBufLen < pb.httpContentLen then none else some pb.replySoFar
  | .rxChunkLenLine =>
      match pb.pal.lineReadStatus a.recv with
      | some (pal, .ok) => if strtoul pal.buf.mem % 2 ^ 32 = 0 then some pb.replySoFar else none
      | _ => none
  | _ => none

end Pb

/-- How the latest body is delimited, what has been received of it and behind it since the empty line,
    and the reply with which `finish` has been called. -/
structure BodyLedger where
  chunked : Bool := false
  length : Nat := 0
  received : Bytes := []
  reply : Option Bytes := none

/-- A context with the ledger of the latest body. -/
structure BodyRun where
  net : Net
  ledger : BodyLedger

namespace BodyRun

variable (s : BodyRun)

/-- What a step adds to the ledger.  It begins anew with each empty line that a body follows. -/
def record (l : NetStep) (net : Net) : BodyLedger :=
  match l with
  | .fsm a =>
      if s.net.pb.state.readsBody then
        { s.ledger with
          received := s.ledger.received ++ s.net.pb.bodyDelivered a
          reply := (s.net.pb.finishedReply a).or s.ledger.reply }
      else if s.net.pb.state = .rxHeaderLine ∧ net.pb.state.readsBody = true then
        { chunked := net.pb.httpChunked
          length := net.pb.httpContentLen
          received := net.pb.pal.buf.unread }
      else s.ledger
  | _ => s.ledger

def step (l : NetStep) : Option BodyRun :=
  (s.net.step l).map fun net => { net, ledger := s.record l net }

end BodyRun

/-- The runs of a context, with the ledger. -/
def bodyMachine (o : PubnubOptions) : Machine BodyRun NetStep where
  init := { net := (netMachine o).init, ledger := {} }
  step := BodyRun.step

/-! ## What reading a body depends on -/

/-- The fields that the states reading a body work with. -/
structure BodyView where
  state : PbState
  pal : Pal
  reply : Option Bytes
  bufLen : Nat
  contentLen : Nat
  chunked : Bool

/-- The socket is left out; it may be given more at any time. -/
def Pb.bodyView (pb : Pb) : BodyView where
  state := pb.state
  pal := { pb.pal with socket := none, toSend := [] }
  reply := pb.httpReply
  bufLen := pb.httpBufLen
  contentLen := pb.httpContentLen
  chunked := pb.httpChunked

namespace Pb

/-- The reading of the body goes on where it was, or the response is not read any longer. -/
def KeepsBody (pb pb' : Pb) : Prop := pb'.bodyView = pb.bodyView ∨ pb'.state.receiving = false

variable {pb : Pb}

lemma keepsBody_requeue (room : Bool) : KeepsBody pb (pb.requeue room) := by
  rw [requeue]
  split <;> exact .inl rfl

end Pb

namespace Net

open Pb

lemma bodyView_unwind (pb : Pb) (stack : List Frame) : (unwind pb stack).1.bodyView = pb.bodyView := by
  induction stack generalizing pb with
  | nil => rfl
  | cons frame rest ih =>
      cases frame with
      | fsm | user => rfl
      | rest keptAlive next =>
          have hafter : (pb.afterOutcome keptAlive).bodyView = pb.bodyView := by
            cases keptAlive <;> rfl
          rw [unwind]
          split
          · exact hafter
          · exact (ih _).trans hafter
      | retryThread =>
          rw [unwind]
          exact ih pb.retryThreadEnds

lemma bodyView_endPass (s : Net) (p : Pass) (stack : List Frame) :
    (s.endPass p stack).pb.bodyView = p.pb.bodyView := by
  rw [endPass]
  split
  · exact bodyView_unwind p.pb _
  · rfl
  · rfl
  · rfl

/-- **A step that is no pass** keeps the reading of a body where it is, or ends it. -/
lemma keepsBody_step {s s' : Net} {l : NetStep} (hl : ∀ a, l ≠ .fsm a) (hs : s.step l = some s') :
    KeepsBody s.pb s'.pb := by
  cases l with
  | start r =>
      simp only [step, Option.ite_none_right_eq_some, Option.some.injEq, Bool.and_eq_true] at hs
      obtain ⟨⟨⟨_, hcan⟩, _⟩, rfl⟩ := hs
      right
      show s.pb.state.receiving = false
      rcases Bool.or_eq_true _ _ ▸ hcan with hst | hst <;> rw [eq_of_beq hst] <;> rfl
  | cancel room =>
      simp only [step, Option.ite_none_right_eq_some, Option.some.injEq] at hs
      obtain ⟨_, rfl⟩ := hs
      exact .inr (receiving_pbncStop s.pb .cancelled room false)
  | callbackReturns =>
      rw [step] at hs
      split at hs
      · rename_i rest _ _
        obtain rfl := Option.some.inj hs
        exact .inl (bodyView_unwind s.pb rest)
      · cases hs
  | fsm a => exact absurd rfl (hl a)
  | processQueue =>
      simp only [step, Option.ite_none_right_eq_some, Option.some.injEq] at hs
      obtain ⟨_, rfl⟩ := hs
      exact .inl rfl
  | pollEvent room =>
      simp only [step, Option.ite_none_right_eq_some, Option.some.injEq] at hs
      obtain ⟨_, rfl⟩ := hs
      exact keepsBody_requeue room
  | timeout room dns =>
      simp only [step, Option.ite_none_right_eq_some, Option.some.injEq] at hs
      obtain ⟨_, rfl⟩ := hs
      exact .inr (receiving_pbncStop _ .timeout room dns)
  | retryExpired =>
      simp only [step, Option.ite_none_right_eq_some, Option.some.injEq] at hs
      obtain ⟨_, rfl⟩ := hs
      rw [retryExpired]
      split
      · exact .inr rfl
      · exact .inl rfl
  | arrive bytes =>
      obtain rfl := Option.some.inj hs
      exact .inl rfl

end Net

/-! ## The invariant -/

namespace BodyView

variable (v : BodyView)

/-- What has been received behind what has been made use of. -/
def pending : Bytes :=
  match v.state with
  | .rxBodyWait | .rxChunkLenLine | .rxBodyChunkWait => v.pal.buf.taken ++ v.pal.buf.unread
  | _ => v.pal.buf.unread

/-- What is known of the platform layer and of the lengths, for the assertions in the passes. -/
def Reading : Prop :=
  match v.state with
  | .rxHeaders => v.contentLen < 2 ^ 32
  | .rxHeaderLine => v.contentLen < 2 ^ 32 ∧ v.pal.buf.Tiled ∧ 10 ∉ v.pal.buf.taken
  | .rxBody =>
      v.contentLen < 2 ^ 32 ∧ v.bufLen ≤ v.contentLen ∧ v.pal.sockState = .none ∧ v.pal.buf.Tiled
  | .rxBodyWait =>
      v.contentLen < 2 ^ 32 ∧ v.bufLen ≤ v.contentLen ∧ v.pal.ReadsNumber ∧
        v.pal.buf.ptr + v.pal.len = v.contentLen - v.bufLen
  | .rxChunkLen => v.pal.sockState = .none ∧ v.pal.buf.Tiled
  | .rxChunkLenLine => v.pal.sockState = .readLine ∧ v.pal.buf.Tiled ∧ 10 ∉ v.pal.buf.taken
  | .rxBodyChunk => v.contentLen < 2 ^ 32 ∧ v.pal.sockState = .none ∧ v.pal.buf.Tiled
  | .rxBodyChunkWait =>
      v.contentLen < 2 ^ 32 ∧ v.pal.ReadsNumber ∧ v.pal.buf.ptr + v.pal.len = v.contentLen
  | _ => True

/-- These bytes have been copied to the reply. -/
structure Holds (d : Bytes) : Prop where
  bufLen : v.bufLen = d.length
  reply : d <+: v.reply.getD []

/-- The reading is at the line in front of a chunk, or of the last one. -/
structure AtHead (done todo : List Chunk) (last : ChunkHead) (ahead behind : Bytes) : Prop where
  holds : v.Holds (chunkData done)
  stream : v.pending ++ ahead = chunkBytes todo last ++ behind

/-- The reading is in a chunk, or in what trails it. -/
structure InChunk (done : List Chunk) (c : Chunk) (todo : List Chunk) (last : ChunkHead)
    (ahead behind : Bytes) (k : Nat) : Prop where
  le : k ≤ c.payload.length
  contentLen : v.contentLen = c.payload.length - k
  holds : v.Holds (chunkData done ++ c.data.take k)
  stream : v.pending ++ ahead = c.payload.drop k ++ (chunkBytes todo last ++ behind)

/-- The reading of a body in chunks is where it should be, when `ahead` is still to come. -/
def ChunksRight (b : ChunkedBody) (ahead behind : Bytes) : Prop :=
  match v.state with
  | .rxChunkLen | .rxChunkLenLine =>
      ∃ done todo, b.chunks = done ++ todo ∧ v.AtHead done todo b.last ahead behind
  | .rxBodyChunk | .rxBodyChunkWait =>
      ∃ done c todo k, b.chunks = done ++ c :: todo ∧ v.InChunk done c todo b.last ahead behind k
  | _ => True

/-- The reading of a body of a known length is where it should be. -/
structure CountsRight (received : Bytes) : Prop where
  le : v.bufLen ≤ received.length
  holds : v.Holds (received.take v.bufLen)
  stream : v.pending = received.drop v.bufLen

variable {v} {b : ChunkedBody} {ahead behind d : Bytes}

lemma chunksRight_of_not_receiving (h : v.state.receiving = false) : v.ChunksRight b ahead behind := by
  rw [ChunksRight]
  split
  all_goals first
    | trivial
    | (rename_i hst; rw [hst] at h; cases h)

lemma reading_of_not_receiving (h : v.state.receiving = false) : v.Reading := by
  rw [Reading]
  split
  all_goals first
    | trivial
    | (rename_i hst; rw [hst] at h; cases h)

lemma Holds.replySoFar {pb : Pb} (h : pb.bodyView.Holds d) : pb.replySoFar = d := by
  obtain ⟨t, ht⟩ := h.reply
  have hlen : pb.httpBufLen = d.length := h.bufLen
  rw [Pb.replySoFar, hlen, show pb.httpReply.getD [] = d ++ t from ht.symm, List.take_left]

/-- More is copied behind it. -/
lemma Holds.copy {pb : Pb} (h : pb.bodyView.Holds d) (src : Bytes) :
    ({ pb.copyToReply pb.httpBufLen src with httpBufLen := pb.httpBufLen + src.length } : Pb).bodyView.Holds
      (d ++ src) where
  bufLen := by
    rw [List.length_append, ← h.bufLen]
    rfl
  reply := by
    have hso : (pb.httpReply.getD []).take pb.httpBufLen = d := h.replySoFar
    refine ⟨(pb.httpReply.getD []).drop (pb.httpBufLen + src.length), ?_⟩
    change _ = (pb.httpReply.getD []).take pb.httpBufLen ++ src ++ _
    rw [hso]

/-- The buffer for a longer reply. -/
lemma Holds.realloc {pb : Pb} (h : pb.bodyView.Holds d) {n : Nat} (hn : pb.httpBufLen + n + 1 < 2 ^ 32)
    (succeeds : Bool) : (pb.reallocReplyBuffer (pb.httpBufLen + n) succeeds).1.bodyView.Holds d := by
  cases succeeds with
  | false => exact h
  | true =>
      have hsize : ((pb.httpBufLen + n) % 2 ^ 32 + 1) % 2 ^ 32 = pb.httpBufLen + n + 1 := by omega
      refine ⟨h.bufLen, ?_⟩
      change d <+: (pb.httpReply.getD []).take (((pb.httpBufLen + n) % 2 ^ 32 + 1) % 2 ^ 32)
      rw [hsize]
      refine List.prefix_take_iff.mpr ⟨h.reply, ?_⟩
      have hlen : pb.httpBufLen = d.length := h.bufLen
      omega

/-- A part of a chunk is copied. -/
lemma Holds.copyChunk {pb : Pb} (h : pb.bodyView.Holds d) {n : Nat} {src : Bytes}
    (hsrc : pb.httpBuf.take (min n (pb.httpContentLen - Pb.chunkTrailLength)) = src)
    (hn : n ≤ pb.httpBuf.length) : (pb.copyChunk n).bodyView.Holds (d ++ src) := by
  rw [Pb.copyChunk]
  split
  · rename_i hlong
    have hlen : min n (pb.httpContentLen - Pb.chunkTrailLength) = src.length := by
      rw [← hsrc, List.length_take]
      omega
    dsimp only
    rw [hsrc, hlen]
    exact h.copy src
  · rename_i hshort
    rw [show pb.httpContentLen - Pb.chunkTrailLength = 0 by omega, Nat.min_zero, List.take_zero] at hsrc
    rw [← hsrc, List.append_nil]
    exact h

end BodyView

/-! ## The passes -/

namespace Pal

variable {p p' : Pal} {d : Bytes}

lemma take_incoming (h : Reads p p' d) :
    p.incoming.take (p.incoming.length - p'.incoming.length) = d := by
  rw [h.incoming, List.length_append, Nat.add_sub_cancel, List.take_left]

lemma startReadLine_eq (hst : p.sockState = .none) (ht : p.buf.Tiled) :
    p.startReadLine = some { p with buf := p.buf.rewind, sockState := .readLine } := by
  rw [ReadWindow.Tiled] at ht
  rw [startReadLine, if_pos ⟨hst, by omega⟩]

lemma exists_startRead {n : Nat} (hst : p.sockState = .none) (ht : p.buf.Tiled) (hn : 0 < n) :
    ∃ p', p.startRead n = some p' := by
  rw [ReadWindow.Tiled] at ht
  exact ⟨_, by rw [startRead, if_pos ⟨hst, hn, by omega⟩]⟩

lemma exists_lineReadStatus (hst : p.sockState = .readLine) (ht : p.buf.Tiled) (a : RecvAnswer) :
    ∃ p' rslt, p.lineReadStatus a = some (p', rslt) := by
  rw [ReadWindow.Tiled] at ht
  rw [lineReadStatus, if_neg (not_not.mpr hst)]
  split
  · rename_i hu
    rw [if_neg (by omega)]
    dsimp only
    split <;> exact ⟨_, _, rfl⟩
  · exact ⟨_, _, rfl⟩

end Pal

namespace Pb

open BodyView

variable {pb : Pb} {a : Answer} {p : Pass} {b : ChunkedBody} {ahead behind : Bytes}

/-- What a pass does that reads a part of a body in chunks. -/
structure ChunkPass (pb : Pb) (a : Answer) (p : Pass) : Prop where
  reading : p.pb.bodyView.Reading
  mode : p.pb.state.readsChunks = true ∨ p.pb.state.receiving = false
  right : ∀ b ahead behind, b.data.length + 2 < 2 ^ 32 →
    pb.bodyView.ChunksRight b (pb.bodyDelivered a ++ ahead) behind →
      p.pb.bodyView.ChunksRight b ahead behind ∧ ∀ r, pb.finishedReply a = some r → r = b.data

/-- The response is not read any longer, and `finish` has not been called. -/
lemma chunkPass_of_not_receiving (h : p.pb.state.receiving = false) (hno : pb.finishedReply a = none) :
    pb.ChunkPass a p where
  reading := reading_of_not_receiving h
  mode := .inr h
  right b ahead behind _ _ := ⟨chunksRight_of_not_receiving h, fun r hr => by rw [hno] at hr; cases hr⟩

lemma chunkPass_rxChunkLen (hst : pb.state = .rxChunkLen) (h : pb.bodyView.Reading) :
    ∃ p, pb.pass a = some p ∧ pb.ChunkPass a p := by
  rw [BodyView.Reading, show pb.bodyView.state = .rxChunkLen from hst] at h
  obtain ⟨hnone, ht⟩ : pb.pal.sockState = .none ∧ pb.pal.buf.Tiled := h
  have hread := Pal.startReadLine_eq hnone ht
  have hstart := Pal.starts_startReadLine ht hread
  refine ⟨_, by rw [pass, hst]; dsimp only; rw [pbsRxChunkLen, hread, Option.map_some], ?_, .inl rfl, ?_⟩
  · exact ⟨rfl, hstart.tiled, List.not_mem_nil⟩
  · intro b ahead behind _ hright
    have hdelivered : pb.bodyDelivered a = [] := by rw [bodyDelivered, hst]
    have hfinished : pb.finishedReply a = none := by rw [finishedReply, hst]
    refine ⟨?_, fun r hr => by rw [hfinished] at hr; cases hr⟩
    rw [ChunksRight, show pb.bodyView.state = .rxChunkLen from hst] at hright
    obtain ⟨done, todo, hsplit, hhead⟩ := hright
    refine ⟨done, todo, hsplit, ⟨hhead.holds.bufLen, hhead.holds.reply⟩, ?_⟩
    have hstream := hhead.stream
    rw [hdelivered, List.nil_append, pending, show pb.bodyView.state = .rxChunkLen from hst] at hstream
    rw [← hstream]
    change pb.pal.buf.rewind.taken ++ pb.pal.buf.rewind.unread ++ ahead = pb.pal.buf.unread ++ ahead
    rw [ReadWindow.taken_rewind, ReadWindow.unread_rewind ht, List.nil_append]

/-- The line with a length. -/
lemma chunkPass_rxChunkLenLine (hst : pb.state = .rxChunkLenLine) (h : pb.bodyView.Reading) :
    ∃ p, pb.pass a = some p ∧ pb.ChunkPass a p := by
  rw [BodyView.Reading, show pb.bodyView.state = .rxChunkLenLine from hst] at h
  obtain ⟨hline, ht, hno⟩ :
    pb.pal.sockState = .readLine ∧ pb.pal.buf.Tiled ∧ 10 ∉ pb.pal.buf.taken := h
  obtain ⟨pal, rslt, hread⟩ := Pal.exists_lineReadStatus hline ht a.recv
  obtain ⟨d, hd⟩ := Pal.reads_lineReadStatus ht hread
  have hdelivered : pb.bodyDelivered a = d := by
    rw [bodyDelivered, hst]
    dsimp only
    rw [hread]
    exact Pal.take_incoming hd
  have hpass : pb.pass a = some ((pb.withPal pal).chunkLenRead a rslt) := by
    rw [pass, hst]
    dsimp only
    rw [pbsRxChunkLenLine, hread, Option.map_some]
  refine ⟨_, hpass, ?_⟩
  -- what the stream begins with, where the reading has come to the end of the line
  have hstream {b : ChunkedBody} {ahead behind : Bytes}
      (hright : pb.bodyView.ChunksRight b (d ++ ahead) behind) : ∃ done todo, b.chunks = done ++ todo ∧
        pb.bodyView.Holds (chunkData done) ∧
        pal.buf.taken ++ pal.buf.unread ++ ahead = chunkBytes todo b.last ++ behind := by
    rw [ChunksRight, show pb.bodyView.state = .rxChunkLenLine from hst] at hright
    obtain ⟨done, todo, hsplit, hholds, hstream⟩ := hright
    rw [pending, show pb.bodyView.state = .rxChunkLenLine from hst] at hstream
    refine ⟨done, todo, hsplit, hholds, ?_⟩
    rw [← hstream, hd.stream, List.append_assoc]
    rfl
  cases Pal.lineRead_lineReadStatus ht hno hread with
  | goesOn hnone hs =>
      have hfinished : pb.finishedReply a = none := by
        rw [finishedReply, hst]
        dsimp only
        rw [hread]
      have hstate : ((pb.withPal pal).chunkLenRead a .inProgress).pb.bodyView.state = .rxChunkLenLine := hst
      refine ⟨?_, .inl (congrArg PbState.readsChunks hst), ?_⟩
      · rw [BodyView.Reading, hstate]
        exact ⟨hs, hd.tiled, hnone⟩
      · intro b ahead behind _ hright
        rw [hdelivered] at hright
        obtain ⟨done, todo, hsplit, hholds, hrest⟩ := hstream hright
        refine ⟨?_, fun r hr => by rw [hfinished] at hr; cases hr⟩
        rw [ChunksRight, hstate]
        refine ⟨done, todo, hsplit, ⟨hholds.bufLen, hholds.reply⟩, ?_⟩
        rw [pending, hstate]
        exact hrest
  | tooLong hnone hlen =>
      refine chunkPass_of_not_receiving (leaves_outcomeDetected _ a _ .brk).receiving ?_
      rw [finishedReply, hst]
      dsimp only
      rw [hread]
  | failed hok hsmall hgo =>
      refine chunkPass_of_not_receiving ?_ ?_
      · rw [chunkLenRead.eq_def]
        split
        · exact absurd rfl hgo
        · exact absurd rfl hok
        · exact (leaves_outcomeDetected _ a _ .brk).receiving
      · rw [finishedReply, hst]
        dsimp only
        rw [hread]
        split
        · rename_i heq
          exact absurd (congrArg Prod.snd (Option.some.inj heq)) hok
        · rfl
  | ended line htaken hnone hmem hs hheld =>
      obtain ⟨stale, hstale⟩ := pal.buf.exists_mem_eq
      have hfinished : pb.finishedReply a =
          if strtoul pal.buf.mem % 2 ^ 32 = 0 then some pb.replySoFar else none := by
        rw [finishedReply, hst]
        dsimp only
        rw [hread]
      -- the line is that of a chunk, or of the last one
      have hhead {b : ChunkedBody} {done todo : List Chunk} {ahead behind : Bytes}
          (hsplit : b.chunks = done ++ todo) (hlt : b.data.length + 2 < 2 ^ 32)
          (hrest : pal.buf.taken ++ pal.buf.unread ++ ahead = chunkBytes todo b.last ++ behind) :
          (todo = [] ∧ strtoul pal.buf.mem % 2 ^ 32 = 0) ∨
            ∃ c todo', todo = c :: todo' ∧ strtoul pal.buf.mem % 2 ^ 32 = c.data.length ∧
              pal.buf.unread ++ ahead = c.payload ++ (chunkBytes todo' b.last ++ behind) := by
        rw [htaken, List.append_assoc] at hrest
        cases todo with
        | nil =>
            obtain ⟨hl, -⟩ := ChunkHead.eq_of_line hnone hrest
            have hzero := b.last.strtoul_bytes (by rw [b.length_last]; decide) (pal.buf.unread ++ stale)
            rw [b.length_last, ← hl, ← htaken, ← List.append_assoc, ← hstale] at hzero
            exact .inl ⟨rfl, by rw [hzero, Nat.zero_mod]⟩
        | cons c todo' =>
            rw [chunkBytes_cons, List.append_assoc c.head.bytes] at hrest
            obtain ⟨hl, hr⟩ := ChunkHead.eq_of_line hnone hrest
            have hle : c.data.length ≤ b.data.length := by
              rw [ChunkedBody.data, hsplit, chunkData_append, chunkData_cons, List.length_append,
                List.length_append]
              omega
            have hvalue := c.head.strtoul_bytes (by rw [← c.length_data]; omega) (pal.buf.unread ++ stale)
            rw [← hl, ← htaken, ← List.append_assoc, ← hstale, ← c.length_data] at hvalue
            refine .inr ⟨c, todo', rfl, ?_, ?_⟩
            · rw [hvalue, Nat.mod_eq_of_lt (by omega)]
            · rw [hr, List.append_assoc]
      by_cases hzero : strtoul pal.buf.mem % 2 ^ 32 = 0
      · have hend : (pb.withPal pal).chunkLenRead a .ok = (pb.withPal pal).finish a .againIfRetry := by
          rw [chunkLenRead.eq_def]
          exact if_pos hzero
        rw [hend]
        have hno := receiving_finish (pb.withPal pal) a .againIfRetry
        refine ⟨reading_of_not_receiving hno, .inr hno, fun b ahead behind hlt hright => ?_⟩
        rw [hdelivered] at hright
        obtain ⟨done, todo, hsplit, hholds, hrest⟩ := hstream hright
        refine ⟨chunksRight_of_not_receiving hno, fun r hr => ?_⟩
        rw [hfinished, if_pos hzero] at hr
        obtain rfl := Option.some.inj hr
        rcases hhead hsplit hlt hrest with ⟨rfl, -⟩ | ⟨c, todo', -, hvalue, -⟩
        · rw [hholds.replySoFar, ChunkedBody.data, hsplit, List.append_nil]
        · have hpos := c.pos
          omega
      · have hnext : (pb.withPal pal).chunkLenRead a .ok =
            if ((pb.withPal pal).reallocReplyBuffer
                (pb.httpBufLen + strtoul pal.buf.mem % 2 ^ 32) a.alloc).2 then
              ({ ((pb.withPal pal).reallocReplyBuffer
                  (pb.httpBufLen + strtoul pal.buf.mem % 2 ^ 32) a.alloc).1 with
                httpContentLen := (strtoul pal.buf.mem % 2 ^ 32 + chunkTrailLength) % 2 ^ 32
                state := .rxBodyChunk } : Pb).again
            else ((pb.withPal pal).reallocReplyBuffer
              (pb.httpBufLen + strtoul pal.buf.mem % 2 ^ 32) a.alloc).1.outcomeDetected a .replyTooBig
                .brk := by
          rw [chunkLenRead.eq_def]
          exact if_neg hzero
        rw [hnext]
        rw [if_neg hzero] at hfinished
        cases halloc : a.alloc with
        | false => exact chunkPass_of_not_receiving (leaves_outcomeDetected _ a _ .brk).receiving hfinished
        | true =>
            refine ⟨⟨Nat.mod_lt _ (by decide), hs, hd.tiled⟩, .inl rfl, fun b ahead behind hlt hright => ?_⟩
            refine ⟨?_, fun r hr => by rw [hfinished] at hr; cases hr⟩
            rw [hdelivered] at hright
            obtain ⟨done, todo, hsplit, hholds, hrest⟩ := hstream hright
            rcases hhead hsplit hlt hrest with ⟨-, hvalue⟩ | ⟨c, todo', rfl, hvalue, hbehind⟩
            · exact absurd hvalue hzero
            · have hlen : pb.httpBufLen = (chunkData done).length := hholds.bufLen
              have hle : (chunkData done).length + c.data.length ≤ b.data.length := by
                rw [ChunkedBody.data, hsplit, chunkData_append, chunkData_cons, List.length_append,
                  List.length_append]
                omega
              have hholds' := hholds.realloc (n := c.data.length) (by omega) true
              refine ⟨done, c, todo', 0, hsplit, Nat.zero_le _, ?_, ?_, hbehind⟩
              · change (strtoul pal.buf.mem % 2 ^ 32 + 2) % 2 ^ 32 = c.payload.length - 0
                rw [hvalue, Nat.mod_eq_of_lt (by omega), Chunk.payload, List.length_append]
                rfl
              · rw [List.take_zero, List.append_nil]
                refine ⟨hholds'.bufLen, ?_⟩
                have hreply := hholds'.reply
                rw [← hvalue] at hreply
                exact hreply

/-- Between two reads of a chunk. -/
lemma chunkPass_rxBodyChunk (hst : pb.state = .rxBodyChunk) (h : pb.bodyView.Reading) :
    ∃ p, pb.pass a = some p ∧ pb.ChunkPass a p := by
  rw [BodyView.Reading, show pb.bodyView.state = .rxBodyChunk from hst] at h
  obtain ⟨hbound, hnone, ht⟩ :
    pb.httpContentLen < 2 ^ 32 ∧ pb.pal.sockState = .none ∧ pb.pal.buf.Tiled := h
  have hdelivered : pb.bodyDelivered a = [] := by rw [bodyDelivered, hst]
  have hfinished : pb.finishedReply a = none := by rw [finishedReply, hst]
  have hpass : pb.pass a = pb.pbsRxBodyChunk := by rw [pass, hst]
  have hin {b : ChunkedBody} {ahead behind : Bytes}
      (hright : pb.bodyView.ChunksRight b (pb.bodyDelivered a ++ ahead) behind) : ∃ done c todo k,
        b.chunks = done ++ c :: todo ∧ k ≤ c.payload.length ∧
          pb.httpContentLen = c.payload.length - k ∧
          pb.bodyView.Holds (chunkData done ++ c.data.take k) ∧
          pb.pal.buf.unread ++ ahead = c.payload.drop k ++ (chunkBytes todo b.last ++ behind) := by
    rw [hdelivered, List.nil_append, ChunksRight, show pb.bodyView.state = .rxBodyChunk from hst] at hright
    obtain ⟨done, c, todo, k, hsplit, hk⟩ := hright
    have hstream := hk.stream
    rw [pending, show pb.bodyView.state = .rxBodyChunk from hst] at hstream
    exact ⟨done, c, todo, k, hsplit, hk.le, hk.contentLen, hk.holds, hstream⟩
  rw [hpass, pbsRxBodyChunk]
  by_cases hmore : 0 < pb.httpContentLen
  · obtain ⟨pal, hread⟩ := Pal.exists_startRead hnone ht hmore
    have hstart := Pal.starts_startRead ht hread
    obtain ⟨hreads, hlen⟩ := Pal.readsNumber_startRead ht hmore hbound hread
    have hptr : pal.buf.ptr = 0 := by
      rw [← ReadWindow.length_taken hstart.tiled, hstart.taken, List.length_nil]
    refine ⟨_, by rw [if_pos hmore, hread, Option.map_some], ?_, .inl rfl, fun b ahead behind _ hright => ?_⟩
    · exact ⟨hbound, ⟨hreads.reading, hreads.tiled, hreads.more, hreads.room⟩, by
        change pal.buf.ptr + pal.len = pb.httpContentLen
        rw [hptr, hlen, Nat.zero_add]⟩
    · obtain ⟨done, c, todo, k, hsplit, hle, hcontent, hholds, hstream⟩ := hin hright
      refine ⟨⟨done, c, todo, k, hsplit, hle, hcontent, ⟨hholds.bufLen, hholds.reply⟩, ?_⟩,
        fun r hr => by rw [hfinished] at hr; cases hr⟩
      change pal.buf.taken ++ pal.buf.unread ++ ahead = _
      rw [hstart.taken, hstart.unread, List.nil_append, hstream]
  · rw [if_neg hmore]
    refine ⟨_, rfl, ⟨hnone, ht⟩, .inl rfl, fun b ahead behind _ hright => ?_⟩
    obtain ⟨done, c, todo, k, hsplit, hle, hcontent, hholds, hstream⟩ := hin hright
    have hall : k = c.payload.length := by omega
    have hlong : c.data.length ≤ k := by
      rw [hall, Chunk.payload, List.length_append]
      omega
    rw [hall, List.drop_length, List.nil_append] at hstream
    rw [List.take_of_length_le hlong, ← chunkData_snoc] at hholds
    refine ⟨⟨done ++ [c], todo, ?_, ⟨hholds.bufLen, hholds.reply⟩, hstream⟩,
      fun r hr => by rw [hfinished] at hr; cases hr⟩
    rw [hsplit, List.append_assoc, List.singleton_append]

/-- A read of a part of a chunk. -/
lemma chunkPass_rxBodyChunkWait (hst : pb.state = .rxBodyChunkWait) (h : pb.bodyView.Reading) :
    ∃ p, pb.pass a = some p ∧ pb.ChunkPass a p := by
  rw [BodyView.Reading, show pb.bodyView.state = .rxBodyChunkWait from hst] at h
  obtain ⟨hbound, hreads, hasked⟩ : pb.httpContentLen < 2 ^ 32 ∧
    pb.bodyView.pal.ReadsNumber ∧ pb.pal.buf.ptr + pb.pal.len = pb.httpContentLen := h
  have hreads : pb.pal.ReadsNumber := ⟨hreads.reading, hreads.tiled, hreads.more, hreads.room⟩
  obtain ⟨pal, rslt, hread, hend⟩ := Pal.exists_readStatus hreads a.recv
  obtain ⟨d, hd⟩ := Pal.reads_readStatus hreads.tiled hread
  have hdelivered : pb.bodyDelivered a = d := by
    rw [bodyDelivered, hst]
    dsimp only
    rw [hread]
    exact Pal.take_incoming hd
  have hfinished : pb.finishedReply a = none := by rw [finishedReply, hst]
  have hpass : pb.pass a = (pb.withPal pal).chunkRead a rslt := by
    rw [pass, hst]
    dsimp only
    rw [pbsRxBodyChunkWait, hread, Option.bind_some]
  have hin {b : ChunkedBody} {ahead behind : Bytes}
      (hright : pb.bodyView.ChunksRight b (d ++ ahead) behind) : ∃ done c todo k,
        b.chunks = done ++ c :: todo ∧ k ≤ c.payload.length ∧
          pb.httpContentLen = c.payload.length - k ∧
          pb.bodyView.Holds (chunkData done ++ c.data.take k) ∧
          pal.buf.taken ++ pal.buf.unread ++ ahead =
            c.payload.drop k ++ (chunkBytes todo b.last ++ behind) := by
    rw [ChunksRight, show pb.bodyView.state = .rxBodyChunkWait from hst] at hright
    obtain ⟨done, c, todo, k, hsplit, hk⟩ := hright
    have hstream := hk.stream
    rw [pending, show pb.bodyView.state = .rxBodyChunkWait from hst] at hstream
    refine ⟨done, c, todo, k, hsplit, hk.le, hk.contentLen, hk.holds, ?_⟩
    rw [← hstream, hd.stream, List.append_assoc]
    rfl
  rw [hasked] at hend
  rw [hpass]
  cases hend with
  | failed hok hgo =>
      refine ⟨(pb.withPal pal).outcomeDetected a rslt .brk, ?_, ?_⟩
      · rw [chunkRead.eq_def]
        split
        · exact absurd rfl hgo
        · exact absurd rfl hok
        · rfl
      · exact chunkPass_of_not_receiving (leaves_outcomeDetected _ a _ .brk).receiving hfinished
  | goesOn hr hsum =>
      have hstate : (pb.withPal pal).bodyView.state = .rxBodyChunkWait := hst
      refine ⟨(pb.withPal pal).brk, rfl, ?_, .inl (congrArg PbState.readsChunks hst), ?_⟩
      · change (pb.withPal pal).bodyView.Reading
        rw [BodyView.Reading, hstate]
        exact ⟨hbound, ⟨hr.reading, hr.tiled, hr.more, hr.room⟩, hsum⟩
      · intro b ahead behind _ hright
        rw [hdelivered] at hright
        obtain ⟨done, c, todo, k, hsplit, hle, hcontent, hholds, hrest⟩ := hin hright
        refine ⟨?_, fun r hr => by rw [hfinished] at hr; cases hr⟩
        change (pb.withPal pal).bodyView.ChunksRight b ahead behind
        rw [ChunksRight, hstate]
        refine ⟨done, c, todo, k, hsplit, hle, hcontent, ⟨hholds.bufLen, hholds.reply⟩, ?_⟩
        rw [pending, hstate]
        exact hrest
  | ended hs hsum hpos =>
      have hassert : pal.readLen ≤ pb.httpContentLen ∧ 0 < pal.readLen :=
        ⟨by rw [Pal.readLen]; omega, hpos⟩
      have hnext : (pb.withPal pal).chunkRead a .ok = some ({ (pb.withPal pal).copyChunk pal.readLen with
          httpContentLen := pb.httpContentLen - pal.readLen
          state := .rxBodyChunk } : Pb).again := by
        rw [chunkRead.eq_def]
        exact if_pos hassert
      have hpal : ((pb.withPal pal).copyChunk pal.readLen).pal = pal := by
        rw [copyChunk]
        split <;> rfl
      refine ⟨_, hnext, ⟨?_, ?_, ?_⟩, .inl rfl, fun b ahead behind _ hright => ?_⟩
      · change pb.httpContentLen - pal.readLen < 2 ^ 32
        omega
      · change ((pb.withPal pal).copyChunk pal.readLen).pal.sockState = .none
        rw [hpal, hs]
      · change ((pb.withPal pal).copyChunk pal.readLen).pal.buf.Tiled
        rw [hpal]
        exact hd.tiled
      · rw [hdelivered] at hright
        obtain ⟨done, c, todo, k, hsplit, hle, hcontent, hholds, hrest⟩ := hin hright
        have hlen : pal.buf.taken.length = pal.readLen := ReadWindow.length_taken hd.tiled
        rw [List.append_assoc] at hrest
        obtain ⟨htaken, hbehind⟩ := c.take_payload (by rw [hlen, ← hcontent]; exact hassert.1) hrest
        rw [hlen] at htaken hbehind
        have hcopied : pal.buf.mem.take (min pal.readLen (pb.httpContentLen - chunkTrailLength)) =
            (c.data.drop k).take pal.readLen := by
          rw [Nat.min_comm, ← List.take_take]
          change pal.buf.taken.take (pb.httpContentLen - 2) = _
          rw [htaken, hcontent, c.take_data]
        have hfits : pal.readLen ≤ pal.buf.mem.length := by
          rw [← hlen, ReadWindow.taken, List.length_take]
          exact min_le_right _ _
        have hholds₀ : (pb.withPal pal).bodyView.Holds (chunkData done ++ c.data.take k) :=
          ⟨hholds.bufLen, hholds.reply⟩
        have hholds' := hholds₀.copyChunk hcopied hfits
        rw [List.append_assoc, ← List.take_add] at hholds'
        refine ⟨⟨done, c, todo, k + pal.readLen, hsplit, ?_, ?_, ⟨hholds'.bufLen, hholds'.reply⟩, ?_⟩,
          fun r hr => by rw [hfinished] at hr; cases hr⟩
        · omega
        · change pb.httpContentLen - pal.readLen = _
          omega
        · change ((pb.withPal pal).copyChunk pal.readLen).pal.buf.unread ++ ahead = _
          rw [hpal]
          exact hbehind

/-- What a pass does that reads a part of a body of a known length. -/
structure CountPass (pb : Pb) (a : Answer) (p : Pass) : Prop where
  reading : p.pb.bodyView.Reading
  mode : p.pb.state = .rxBody ∨ p.pb.state = .rxBodyWait ∨ p.pb.state.receiving = false
  right : ∀ received, pb.bodyView.CountsRight received →
    (p.pb.state.receiving = true → p.pb.httpContentLen = pb.httpContentLen ∧
      p.pb.bodyView.CountsRight (received ++ pb.bodyDelivered a)) ∧
    ∀ r, pb.finishedReply a = some r → r <+: received ∧ r.length = pb.httpContentLen

lemma countPass_of_not_receiving (h : p.pb.state.receiving = false) (hno : pb.finishedReply a = none) :
    pb.CountPass a p where
  reading := reading_of_not_receiving h
  mode := .inr (.inr h)
  right received _ := by
    refine ⟨fun hrec => ?_, fun r hr => ?_⟩
    · rw [h] at hrec
      cases hrec
    · rw [hno] at hr
      cases hr

/-- Between two reads of the body. -/
lemma countPass_rxBody (hst : pb.state = .rxBody) (h : pb.bodyView.Reading) :
    ∃ p, pb.pass a = some p ∧ pb.CountPass a p := by
  rw [BodyView.Reading, show pb.bodyView.state = .rxBody from hst] at h
  obtain ⟨hbound, hle, hnone, ht⟩ : pb.httpContentLen < 2 ^ 32 ∧ pb.httpBufLen ≤ pb.httpContentLen ∧
    pb.pal.sockState = .none ∧ pb.pal.buf.Tiled := h
  have hdelivered : pb.bodyDelivered a = [] := by rw [bodyDelivered, hst]
  have hpass : pb.pass a = pb.pbsRxBody a := by rw [pass, hst]
  rw [hpass, pbsRxBody]
  by_cases hmore : pb.httpBufLen < pb.httpContentLen
  · have hfinished : pb.finishedReply a = none := by
      rw [finishedReply, hst]
      exact if_pos hmore
    have hpos : 0 < pb.httpContentLen - pb.httpBufLen := Nat.sub_pos_of_lt hmore
    obtain ⟨pal, hread⟩ := Pal.exists_startRead hnone ht hpos
    have hstart := Pal.starts_startRead ht hread
    obtain ⟨hreads, hlen⟩ := Pal.readsNumber_startRead ht hpos (by omega) hread
    have hptr : pal.buf.ptr = 0 := by
      rw [← ReadWindow.length_taken hstart.tiled, hstart.taken, List.length_nil]
    rw [if_pos hmore, hread, Option.map_some]
    refine ⟨_, rfl, ⟨hbound, hle, ⟨hreads.reading, hreads.tiled, hreads.more, hreads.room⟩, ?_⟩,
      .inr (.inl rfl), fun received hright => ⟨fun _ => ⟨rfl, ?_⟩, ?_⟩⟩
    · change pal.buf.ptr + pal.len = pb.httpContentLen - pb.httpBufLen
      rw [hptr, hlen, Nat.zero_add]
    · rw [hdelivered, List.append_nil]
      refine ⟨hright.le, ⟨hright.holds.bufLen, hright.holds.reply⟩, ?_⟩
      change pal.buf.taken ++ pal.buf.unread = received.drop pb.httpBufLen
      have hstream := hright.stream
      rw [pending, show pb.bodyView.state = .rxBody from hst] at hstream
      rw [hstart.taken, hstart.unread, List.nil_append]
      exact hstream
    · intro r hr
      rw [hfinished] at hr
      cases hr
  · have hfinished : pb.finishedReply a = some pb.replySoFar := by
      rw [finishedReply, hst]
      exact if_neg hmore
    have hno := receiving_finish pb a .againIfRetry
    rw [if_neg hmore]
    refine ⟨_, rfl, reading_of_not_receiving hno, .inr (.inr hno), fun received hright => ⟨fun hrec => ?_,
      fun r hr => ?_⟩⟩
    · rw [hno] at hrec
      cases hrec
    · rw [hfinished] at hr
      obtain rfl := Option.some.inj hr
      rw [hright.holds.replySoFar]
      refine ⟨List.take_prefix _ _, ?_⟩
      have hlen : pb.httpBufLen ≤ received.length := hright.le
      rw [List.length_take]
      change min pb.httpBufLen _ = _
      omega

/-- A read of a part of the body. -/
lemma countPass_rxBodyWait (hst : pb.state = .rxBodyWait) (h : pb.bodyView.Reading) :
    ∃ p, pb.pass a = some p ∧ pb.CountPass a p := by
  rw [BodyView.Reading, show pb.bodyView.state = .rxBodyWait from hst] at h
  obtain ⟨hbound, hle, hreads, hasked⟩ : pb.httpContentLen < 2 ^ 32 ∧
    pb.httpBufLen ≤ pb.httpContentLen ∧ pb.bodyView.pal.ReadsNumber ∧
      pb.pal.buf.ptr + pb.pal.len = pb.httpContentLen - pb.httpBufLen := h
  have hreads : pb.pal.ReadsNumber := ⟨hreads.reading, hreads.tiled, hreads.more, hreads.room⟩
  obtain ⟨pal, rslt, hread, hend⟩ := Pal.exists_readStatus hreads a.recv
  obtain ⟨d, hd⟩ := Pal.reads_readStatus hreads.tiled hread
  have hdelivered : pb.bodyDelivered a = d := by
    rw [bodyDelivered, hst]
    dsimp only
    rw [hread]
    exact Pal.take_incoming hd
  have hfinished : pb.finishedReply a = none := by rw [finishedReply, hst]
  have hpass : pb.pass a = (pb.withPal pal).bodyRead a rslt := by
    rw [pass, hst]
    dsimp only
    rw [pbsRxBodyWait, hread, Option.bind_some]
  have hstream {received : Bytes} (hright : pb.bodyView.CountsRight received) :
      pal.buf.taken ++ pal.buf.unread = (received ++ d).drop pb.httpBufLen := by
    have hpending := hright.stream
    rw [pending, show pb.bodyView.state = .rxBodyWait from hst] at hpending
    have hpending : pb.pal.buf.taken ++ pb.pal.buf.unread = received.drop pb.httpBufLen := hpending
    have hlen : pb.httpBufLen ≤ received.length := hright.le
    rw [hd.stream, hpending, List.drop_append_of_le_length hlen]
  rw [hasked] at hend
  rw [hpass]
  cases hend with
  | failed hok hgo =>
      refine ⟨(pb.withPal pal).outcomeDetected a rslt .brk, ?_, ?_⟩
      · rw [bodyRead.eq_def]
        split
        · exact absurd rfl hgo
        · exact absurd rfl hok
        · rfl
      · exact countPass_of_not_receiving (leaves_outcomeDetected _ a _ .brk).receiving hfinished
  | goesOn hr hsum =>
      have hstate : (pb.withPal pal).bodyView.state = .rxBodyWait := hst
      refine ⟨(pb.withPal pal).brk, rfl, ?_, .inr (.inl hst), fun received hright =>
        ⟨fun _ => ⟨rfl, ?_⟩, ?_⟩⟩
      · change (pb.withPal pal).bodyView.Reading
        rw [BodyView.Reading, hstate]
        exact ⟨hbound, hle, ⟨hr.reading, hr.tiled, hr.more, hr.room⟩, hsum⟩
      · have hlen : pb.httpBufLen ≤ received.length := hright.le
        rw [hdelivered]
        refine ⟨?_, ⟨?_, ?_⟩, ?_⟩
        · rw [List.length_append]
          exact Nat.le_add_right_of_le hlen
        · change pb.httpBufLen = ((received ++ d).take pb.httpBufLen).length
          rw [List.length_take, List.length_append]
          omega
        · change (received ++ d).take pb.httpBufLen <+: pb.httpReply.getD []
          rw [List.take_append_of_le_length hlen]
          exact hright.holds.reply
        · change (pb.withPal pal).bodyView.pending = _
          rw [pending, hstate]
          exact hstream hright
      · intro r hr
        rw [hfinished] at hr
        cases hr
  | ended hs hsum hpos =>
      have hassert : pb.httpBufLen + pal.readLen ≤ pb.httpContentLen := by
        rw [Pal.readLen]
        omega
      have hnext : (pb.withPal pal).bodyRead a .ok = some ({ (pb.withPal pal).copyToReply pb.httpBufLen
          (pal.buf.mem.take pal.readLen) with
            httpBufLen := pb.httpBufLen + pal.readLen
            state := .rxBody } : Pb).again := by
        rw [bodyRead.eq_def]
        exact if_pos hassert
      have hlen : pal.buf.taken.length = pal.readLen := ReadWindow.length_taken hd.tiled
      refine ⟨_, hnext, ⟨hbound, hassert, hs, hd.tiled⟩, .inl rfl, fun received hright =>
        ⟨fun _ => ⟨rfl, ?_⟩, ?_⟩⟩
      · rw [hdelivered]
        have hrest := hstream hright
        have hle : pb.httpBufLen ≤ received.length := hright.le
        have htaken : (received ++ d).take (pb.httpBufLen + pal.readLen) =
            received.take pb.httpBufLen ++ pal.buf.taken := by
          rw [List.take_add, ← hrest, ← hlen, List.take_left, List.take_append_of_le_length hle]
        have hholds := hright.holds.copy pal.buf.taken
        rw [hlen] at hholds
        have hlong : pb.httpBufLen + pal.readLen ≤ (received ++ d).length := by
          have hcount := congrArg List.length hrest
          have hmore : received.length ≤ (received ++ d).length := by
            rw [List.length_append]
            exact Nat.le_add_right _ _
          rw [List.length_append, List.length_drop, hlen] at hcount
          omega
        refine ⟨hlong, ⟨?_, ?_⟩, ?_⟩
        · change pb.httpBufLen + pal.readLen = ((received ++ d).take (pb.httpBufLen + pal.readLen)).length
          rw [List.length_take]
          omega
        · change (received ++ d).take (pb.httpBufLen + pal.readLen) <+: _
          rw [htaken]
          exact hholds.reply
        · change pal.buf.unread = (received ++ d).drop (pb.httpBufLen + pal.readLen)
          rw [← List.drop_drop, ← hrest, ← hlen, List.drop_left]
      · intro r hr
        rw [hfinished] at hr
        cases hr

/-! ## Up to the empty line -/

lemma toUnsigned_lt_word (z : Int) : toUnsigned z < 2 ^ 32 := by
  rw [toUnsigned]
  omega

lemma contentLen_of_proxyHeader {pb pb' : Pb} (h : pb.pbproxyHandleHttpHeader a = some pb') :
    pb'.httpContentLen = pb.httpContentLen := by
  rw [pbproxyHandleHttpHeader] at h
  split at h
  · obtain rfl := Option.some.inj h
    rfl
  · cases h
  · obtain rfl := Option.some.inj h
    rfl

/-- A header line is followed by the next one, or ends the transaction; the lengths that it announces
    are 32 bits wide. -/
lemma reading_headerLine (pb : Pb) (a : Answer) (hbound : pb.httpContentLen < 2 ^ 32) :
    (pb.headerLine a).pb.bodyView.Reading ∧ (pb.headerLine a).pb.state.readsBody = false := by
  have hno {p : Pass} (h : p.pb.state.receiving = false) :
      p.pb.bodyView.Reading ∧ p.pb.state.readsBody = false :=
    ⟨reading_of_not_receiving h, (readsHeaders_of_not_receiving h).2⟩
  rw [headerLine]
  dsimp only
  split
  · exact ⟨hbound, rfl⟩
  · split
    · split
      · exact ⟨toUnsigned_lt_word _, rfl⟩
      · exact hno (leaves_outcomeDetected _ a .replyTooBig .brk).receiving
    · split
      · exact ⟨hbound, rfl⟩
      · split
        · exact ⟨hbound, rfl⟩
        · split
          · exact hno (leaves_outcomeDetected _ a .authenticationFailed .ret).receiving
          · rename_i hproxy
            exact ⟨(contentLen_of_proxyHeader hproxy).trans_lt hbound, rfl⟩

/-- What is known where a body begins. -/
structure BodyStart (pb : Pb) : Prop where
  bufLen : pb.httpBufLen = 0
  chunked : pb.httpChunked = pb.state.readsChunks
  state : pb.state = .rxChunkLen ∨ pb.state = .rxBody

lemma bodyStart_endOfHeaders (pb : Pb) (a : Answer) (hbound : pb.httpContentLen < 2 ^ 32)
    (hs : pb.pal.sockState = .none) (ht : pb.pal.buf.Tiled) :
    (pb.endOfHeaders a).pb.bodyView.Reading ∧
      ((pb.endOfHeaders a).pb.state.readsBody = true → (pb.endOfHeaders a).pb.BodyStart) := by
  have hno {p : Pass} (h : p.pb.state.receiving = false) :
      p.pb.bodyView.Reading ∧ (p.pb.state.readsBody = true → p.pb.BodyStart) := by
    refine ⟨reading_of_not_receiving h, fun hb => ?_⟩
    rw [(readsHeaders_of_not_receiving h).2] at hb
    cases hb
  rw [endOfHeaders]
  dsimp only
  split
  · rename_i hchunked
    exact ⟨⟨hs, ht⟩, fun _ => ⟨rfl, hchunked, .inl rfl⟩⟩
  · rename_i hchunked
    rw [Bool.not_eq_true] at hchunked
    split
    · split
      · exact hno (receiving_finish _ a .brk)
      · exact hno (leaves_outcomeDetected _ a .ioError .brk).receiving
    · exact ⟨⟨hbound, Nat.zero_le _, hs, ht⟩, fun _ => ⟨rfl, hchunked, .inr rfl⟩⟩

/-- A read of a header line. -/
lemma headerPass_rxHeaderLine (hst : pb.state = .rxHeaderLine) (h : pb.bodyView.Reading)
    (hp : pb.pass a = some p) :
    p.pb.bodyView.Reading ∧ (p.pb.state.readsBody = true → p.pb.BodyStart) := by
  rw [BodyView.Reading, show pb.bodyView.state = .rxHeaderLine from hst] at h
  obtain ⟨hbound, ht, hno⟩ :
    pb.httpContentLen < 2 ^ 32 ∧ pb.pal.buf.Tiled ∧ 10 ∉ pb.pal.buf.taken := h
  have hnobody {p : Pass} (hr : p.pb.bodyView.Reading) (h : p.pb.state.readsBody = false) :
      p.pb.bodyView.Reading ∧ (p.pb.state.readsBody = true → p.pb.BodyStart) := by
    refine ⟨hr, fun hb => ?_⟩
    rw [h] at hb
    cases hb
  simp only [Pb.pass, hst] at hp
  obtain ⟨⟨pal, rslt⟩, hread, rfl⟩ := Option.map_eq_some_iff.mp hp
  obtain ⟨d, hd⟩ := Pal.reads_lineReadStatus ht hread
  cases Pal.lineRead_lineReadStatus ht hno hread with
  | goesOn hnone hs =>
      have hstate : (pb.withPal pal).bodyView.state = .rxHeaderLine := hst
      refine hnobody ?_ (congrArg PbState.readsBody hst)
      change (pb.withPal pal).bodyView.Reading
      rw [BodyView.Reading, hstate]
      exact ⟨hbound, hd.tiled, hnone⟩
  | tooLong hnone hlen => exact hnobody hbound rfl
  | failed hok hsmall hgo =>
      have hleaves : ((pb.withPal pal).headerLineRead a rslt).pb.state.receiving = false := by
        rw [headerLineRead.eq_def]
        split
        · exact absurd rfl hgo
        · exact absurd rfl hsmall
        · exact absurd rfl hok
        · exact (leaves_outcomeDetected _ a _ .brk).receiving
      exact hnobody (reading_of_not_receiving hleaves) (readsHeaders_of_not_receiving hleaves).2
  | ended line htaken hnone hmem hs hheld =>
      dsimp only
      rw [headerLineRead.eq_def]
      dsimp only
      split
      · exact bodyStart_endOfHeaders _ a hbound hs hd.tiled
      · obtain ⟨hr, hb⟩ := reading_headerLine (pb.withPal pal) a hbound
        exact hnobody hr hb

/-- A pass in any other state comes to no body. -/
lemma reading_pass (hr : pb.bodyView.Reading) (hb : pb.state.readsBody = false)
    (hl : pb.state ≠ .rxHeaderLine) (hp : pb.pass a = some p) :
    p.pb.bodyView.Reading ∧ p.pb.state.readsBody = false := by
  have hleaves {p : Pass} (h : p.pb.state.receiving = false) :
      p.pb.bodyView.Reading ∧ p.pb.state.readsBody = false :=
    ⟨reading_of_not_receiving h, (readsHeaders_of_not_receiving h).2⟩
  by_cases hv : pb.state = .rxHttpVer
  · have hnot {pb : Pb} (h : pb.state.receiving = false) (hs : pb.state = .rxHeaders) : False := by
      rw [hs] at h
      cases h
    simp only [Pb.pass, hv] at hp
    obtain ⟨r, _, rfl⟩ := Option.map_eq_some_iff.mp hp
    rcases statusLineRead_state (pb.withPal r.1) a hv r.2 with hnext | hno
    · rw [statusLineRead.eq_def] at hnext ⊢
      split at hnext
      · have himpossible := hv.symm.trans hnext
        cases himpossible
      · split at hnext
        · rename_i hversion
          rw [if_pos hversion]
          exact ⟨show 0 < 2 ^ 32 by decide, rfl⟩
        · exact (hnot (leaves_outcomeDetected _ a .ioError .brk).receiving hnext).elim
      · split at hnext
        · exact (hnot (leaves_closeKeptAliveConnection _ a).receiving hnext).elim
        · exact (hnot (leaves_outcomeDetected _ a _ .brk).receiving hnext).elim
      · split at hnext
        · exact (hnot (leaves_closeKeptAliveConnection _ a).receiving hnext).elim
        · exact (hnot (leaves_outcomeDetected _ a _ .brk).receiving hnext).elim
      · exact (hnot (leaves_outcomeDetected _ a _ .brk).receiving hnext).elim
    · exact hleaves hno
  by_cases hst : pb.state = .rxHeaders
  · rw [BodyView.Reading, show pb.bodyView.state = .rxHeaders from hst] at hr
    simp only [Pb.pass, hst] at hp
    obtain ⟨pal, hread, rfl⟩ := Option.map_eq_some_iff.mp hp
    have ht : pb.pal.buf.Tiled := by
      have hassert := hread
      rw [Pal.startReadLine, Option.ite_none_right_eq_some] at hassert
      have hsum := hassert.1.2
      rw [ReadWindow.Tiled]
      omega
    have hstart := Pal.starts_startReadLine ht hread
    refine ⟨⟨hr, hstart.tiled, ?_⟩, rfl⟩
    change 10 ∉ pal.buf.taken
    rw [hstart.taken]
    exact List.not_mem_nil
  · refine hleaves (leaves_pass ?_ hv p hp).receiving
    rw [← Bool.not_eq_true]
    intro hrec
    rw [PbState.readsBody, hrec, Bool.true_and, Bool.not_eq_false'] at hb
    cases hcase : pb.state with
    | rxHeaders => exact hst hcase
    | rxHeaderLine => exact hl hcase
    | _ =>
        rw [hcase] at hb
        cases hb

end Pb

/-! ## The runs -/

namespace BodyRun

open BodyView

variable {s : BodyRun} {a : Answer}

/-- **The invariant.** -/
structure Sound (s : BodyRun) : Prop where
  reading : s.net.pb.bodyView.Reading
  mode : s.net.pb.state.readsBody = true → s.ledger.chunked = s.net.pb.state.readsChunks
  chunked : s.ledger.chunked = true → ∀ b ahead behind, b.data.length + 2 < 2 ^ 32 →
    s.ledger.received ++ ahead = b.bytes ++ behind →
      s.net.pb.bodyView.ChunksRight b ahead behind ∧ ∀ r, s.ledger.reply = some r → r = b.data
  counted : s.ledger.chunked = false →
    (s.net.pb.state.readsBody = true → s.net.pb.httpContentLen = s.ledger.length ∧
      s.net.pb.bodyView.CountsRight s.ledger.received) ∧
    ∀ r, s.ledger.reply = some r → r <+: s.ledger.received ∧ r.length = s.ledger.length

lemma readsBody_of_readsChunks {state : PbState} (h : state.readsChunks = true) :
    state.readsBody = true := by
  cases state <;> first | rfl | cases h

lemma chunksRight_of_not_body {v : BodyView} {b : ChunkedBody} {ahead behind : Bytes}
    (h : v.state.readsBody = false) : v.ChunksRight b ahead behind := by
  rw [ChunksRight]
  split
  all_goals first
    | trivial
    | (rename_i hst; rw [hst] at h; cases h)

/-- No body is read. -/
lemma sound_of_not_body {net : Net} (h : s.Sound) (hr : net.pb.bodyView.Reading)
    (hb : net.pb.state.readsBody = false) : Sound { net, ledger := s.ledger } where
  reading := hr
  mode hbody := by
    rw [show net.pb.state.readsBody = _ from hb] at hbody
    cases hbody
  chunked hc b ahead behind hlt heq :=
    ⟨chunksRight_of_not_body hb, (h.chunked hc b ahead behind hlt heq).2⟩
  counted hc := by
    refine ⟨fun hbody => ?_, (h.counted hc).2⟩
    rw [show net.pb.state.readsBody = _ from hb] at hbody
    cases hbody

/-- The body begins. -/
lemma sound_start {net : Net} (hr : net.pb.bodyView.Reading) (hs : net.pb.BodyStart) :
    Sound { net, ledger := {
      chunked := net.pb.httpChunked
      length := net.pb.httpContentLen
      received := net.pb.pal.buf.unread } } where
  reading := hr
  mode _ := hs.chunked
  chunked hc b ahead behind _ heq := by
    have hstate : net.pb.bodyView.state = .rxChunkLen := by
      rcases hs.state with hst | hst
      · exact hst
      · have hchunked := hs.chunked
        rw [hst] at hchunked
        exact absurd (hchunked.symm.trans hc) (by decide)
    refine ⟨?_, fun r hr => by cases hr⟩
    rw [ChunksRight, hstate]
    refine ⟨[], b.chunks, rfl, ⟨hs.bufLen, List.nil_prefix⟩, ?_⟩
    rw [pending, hstate]
    exact heq
  counted hc := by
    have hstate : net.pb.bodyView.state = .rxBody := by
      rcases hs.state with hst | hst
      · have hchunked := hs.chunked
        rw [hst] at hchunked
        exact absurd (hchunked.symm.trans hc) (by decide)
      · exact hst
    have hzero : net.pb.bodyView.bufLen = 0 := hs.bufLen
    refine ⟨fun _ => ⟨rfl, ?_, ⟨?_, ?_⟩, ?_⟩, fun r hr => by cases hr⟩
    · rw [hzero]
      exact Nat.zero_le _
    · rw [hzero, List.take_zero, List.length_nil]
    · rw [hzero, List.take_zero]
      exact List.nil_prefix
    · rw [hzero, List.drop_zero, pending, hstate]
      rfl

/-- The ledger after a pass that reads the body. -/
def passed (s : BodyRun) (a : Answer) : BodyLedger :=
  { s.ledger with
    received := s.ledger.received ++ s.net.pb.bodyDelivered a
    reply := (s.net.pb.finishedReply a).or s.ledger.reply }

/-- A pass that reads a part of a body in chunks. -/
lemma sound_chunkPass {p : Pass} {net : Net} (h : s.Sound) (hb : s.net.pb.state.readsChunks = true)
    (hp : s.net.pb.ChunkPass a p) (hview : net.pb.bodyView = p.pb.bodyView) :
    Sound { net, ledger := s.passed a } := by
  have hstate : net.pb.state = p.pb.state := congrArg BodyView.state hview
  have hchunked : s.ledger.chunked = true := (h.mode (readsBody_of_readsChunks hb)).trans hb
  refine ⟨hview ▸ hp.reading, fun hbody => ?_, fun _ b ahead behind hlt heq => ?_, fun hc => ?_⟩
  · change s.ledger.chunked = net.pb.state.readsChunks
    rw [hchunked, hstate]
    rcases hp.mode with hmode | hno
    · exact hmode.symm
    · rw [show net.pb.state = _ from hstate, (Pb.readsHeaders_of_not_receiving hno).2] at hbody
      cases hbody
  · have heq : s.ledger.received ++ (s.net.pb.bodyDelivered a ++ ahead) = b.bytes ++ behind := by
      rw [← List.append_assoc]
      exact heq
    obtain ⟨hright, hreply⟩ := h.chunked hchunked b _ behind hlt heq
    obtain ⟨hright', hfinished⟩ := hp.right b ahead behind hlt hright
    refine ⟨hview ▸ hright', fun r hr => ?_⟩
    rcases Option.or_eq_some_iff.mp hr with hr | ⟨-, hr⟩
    · exact hfinished r hr
    · exact hreply r hr
  · exact absurd (hchunked.symm.trans hc) (by decide)

/-- A pass that reads a part of a body of a known length. -/
lemma sound_countPass {p : Pass} {net : Net} (h : s.Sound)
    (hb : s.net.pb.state = .rxBody ∨ s.net.pb.state = .rxBodyWait)
    (hp : s.net.pb.CountPass a p) (hview : net.pb.bodyView = p.pb.bodyView) :
    Sound { net, ledger := s.passed a } := by
  have hstate : net.pb.state = p.pb.state := congrArg BodyView.state hview
  have hbody : s.net.pb.state.readsBody = true := by
    rcases hb with hb | hb <;> rw [hb] <;> rfl
  have hchunked : s.ledger.chunked = false := by
    rw [h.mode hbody]
    rcases hb with hb | hb <;> rw [hb] <;> rfl
  refine ⟨hview ▸ hp.reading, fun hbody => ?_, fun hc => ?_, fun _ => ?_⟩
  · change s.ledger.chunked = net.pb.state.readsChunks
    rw [hchunked, hstate]
    rcases hp.mode with hmode | hmode | hno
    · rw [hmode]
      rfl
    · rw [hmode]
      rfl
    · rw [show net.pb.state = _ from hstate, (Pb.readsHeaders_of_not_receiving hno).2] at hbody
      cases hbody
  · exact absurd (hchunked.symm.trans hc) (by decide)
  · obtain ⟨hright, hreply⟩ := h.counted hchunked
    obtain ⟨hlength, hcounts⟩ := hright hbody
    obtain ⟨hnext, hfinished⟩ := hp.right _ hcounts
    refine ⟨fun hbody => ?_, fun r hr => ?_⟩
    · have hrec : p.pb.state.receiving = true := by
        rw [← hstate]
        exact (Bool.and_eq_true_iff.mp hbody).1
      obtain ⟨hlen, hcounts'⟩ := hnext hrec
      have hsame : net.pb.httpContentLen = p.pb.httpContentLen := congrArg BodyView.contentLen hview
      exact ⟨hsame.trans (hlen.trans hlength), hview ▸ hcounts'⟩
    · have hmore : s.ledger.received <+: s.ledger.received ++ s.net.pb.bodyDelivered a :=
        List.prefix_append _ _
      rcases Option.or_eq_some_iff.mp hr with hr | ⟨-, hr⟩
      · obtain ⟨hbegins, hlen⟩ := hfinished r hr
        exact ⟨hbegins.trans hmore, hlen.trans hlength⟩
      · obtain ⟨hbegins, hlen⟩ := hreply r hr
        exact ⟨hbegins.trans hmore, hlen⟩

/-- **No assertion fails** while a body is read: there is a pass, whatever the answers. -/
lemma exists_bodyPass {pb : Pb} (hr : pb.bodyView.Reading) (hb : pb.state.readsBody = true) (a : Answer) :
    ∃ p, pb.pass a = some p ∧ (pb.state.readsChunks = true → pb.ChunkPass a p) ∧
      (pb.state = .rxBody ∨ pb.state = .rxBodyWait → pb.CountPass a p) := by
  have hchunk (h : ∃ p, pb.pass a = some p ∧ pb.ChunkPass a p)
      (hno : ¬ (pb.state = .rxBody ∨ pb.state = .rxBodyWait)) : ∃ p, pb.pass a = some p ∧
        (pb.state.readsChunks = true → pb.ChunkPass a p) ∧
        (pb.state = .rxBody ∨ pb.state = .rxBodyWait → pb.CountPass a p) := by
    obtain ⟨p, hp, hpass⟩ := h
    exact ⟨p, hp, fun _ => hpass, fun h => absurd h hno⟩
  have hcount (h : ∃ p, pb.pass a = some p ∧ pb.CountPass a p) (hno : ¬ pb.state.readsChunks = true) :
      ∃ p, pb.pass a = some p ∧ (pb.state.readsChunks = true → pb.ChunkPass a p) ∧
        (pb.state = .rxBody ∨ pb.state = .rxBodyWait → pb.CountPass a p) := by
    obtain ⟨p, hp, hpass⟩ := h
    exact ⟨p, hp, fun h => absurd h hno, fun _ => hpass⟩
  cases hst : pb.state with
  | rxBody => exact hst ▸ hcount (Pb.countPass_rxBody hst hr) (by rw [hst]; decide)
  | rxBodyWait => exact hst ▸ hcount (Pb.countPass_rxBodyWait hst hr) (by rw [hst]; decide)
  | rxChunkLen => exact hst ▸ hchunk (Pb.chunkPass_rxChunkLen hst hr) (by rw [hst]; decide)
  | rxChunkLenLine => exact hst ▸ hchunk (Pb.chunkPass_rxChunkLenLine hst hr) (by rw [hst]; decide)
  | rxBodyChunk => exact hst ▸ hchunk (Pb.chunkPass_rxBodyChunk hst hr) (by rw [hst]; decide)
  | rxBodyChunkWait => exact hst ▸ hchunk (Pb.chunkPass_rxBodyChunkWait hst hr) (by rw [hst]; decide)
  | _ =>
      rw [hst] at hb
      cases hb

/-- **One pass.** -/
lemma sound_pass {p : Pass} {net : Net} (h : s.Sound) (hp : s.net.pb.pass a = some p)
    (hview : net.pb.bodyView = p.pb.bodyView) : Sound { net, ledger := s.record (.fsm a) net } := by
  have hstate : net.pb.state = p.pb.state := congrArg BodyView.state hview
  by_cases hb : s.net.pb.state.readsBody = true
  · have hledger : s.record (.fsm a) net = s.passed a := by
      rw [record]
      exact if_pos hb
    obtain ⟨p', hp', hchunk, hcount⟩ := exists_bodyPass h.reading hb a
    obtain rfl : p' = p := Option.some.inj (hp'.symm.trans hp)
    rw [hledger]
    by_cases hc : s.net.pb.state.readsChunks = true
    · exact sound_chunkPass h hc (hchunk hc) hview
    · have hst : s.net.pb.state = .rxBody ∨ s.net.pb.state = .rxBodyWait := by
        cases hst : s.net.pb.state with
        | rxBody => exact .inl rfl
        | rxBodyWait => exact .inr rfl
        | rxChunkLen | rxChunkLenLine | rxBodyChunk | rxBodyChunkWait =>
            rw [hst] at hc
            exact absurd rfl hc
        | _ =>
            rw [hst] at hb
            cases hb
      exact sound_countPass h hst (hcount hst) hview
  have hnobody : s.net.pb.state.readsBody = false := Bool.not_eq_true _ ▸ hb
  by_cases hl : s.net.pb.state = .rxHeaderLine
  · obtain ⟨hr, hstart⟩ := Pb.headerPass_rxHeaderLine hl h.reading hp
    by_cases hnext : net.pb.state.readsBody = true
    · have hledger : s.record (.fsm a) net =
          { chunked := net.pb.httpChunked, length := net.pb.httpContentLen,
            received := net.pb.pal.buf.unread } := by
        rw [record]
        dsimp only
        rw [if_neg hb, if_pos ⟨hl, hnext⟩]
      obtain ⟨hlen, hchunked, hat⟩ := hstart (hstate ▸ hnext)
      rw [hledger]
      refine sound_start (hview ▸ hr) ⟨?_, ?_, ?_⟩
      · exact (congrArg BodyView.bufLen hview).trans hlen
      · rw [hstate]
        exact (congrArg BodyView.chunked hview).trans hchunked
      · rw [hstate]
        exact hat
    · have hledger : s.record (.fsm a) net = s.ledger := by
        rw [record]
        dsimp only
        rw [if_neg hb, if_neg fun hand => hnext hand.2]
      rw [hledger]
      exact sound_of_not_body h (hview ▸ hr) (Bool.not_eq_true _ ▸ hnext)
  · have hledger : s.record (.fsm a) net = s.ledger := by
      rw [record]
      dsimp only
      rw [if_neg hb, if_neg fun hand => hl hand.1]
    obtain ⟨hr, hno⟩ := Pb.reading_pass h.reading hnobody hl hp
    rw [hledger]
    exact sound_of_not_body h (hview ▸ hr) (hstate ▸ hno)

/-- **One step.** -/
lemma sound_step {s' : BodyRun} {l : NetStep} (h : s.Sound) (hs : s.step l = some s') : s'.Sound := by
  obtain ⟨net, hnet, rfl⟩ := Option.map_eq_some_iff.mp hs
  by_cases hfsm : ∃ a, l = .fsm a
  · obtain ⟨a, rfl⟩ := hfsm
    rw [Net.step] at hnet
    split at hnet
    · obtain ⟨p, hp, rfl⟩ := Option.map_eq_some_iff.mp hnet
      exact sound_pass h hp (Net.bodyView_endPass s.net p _)
    · cases hnet
  · have hl : ∀ a, l ≠ .fsm a := fun a heq => hfsm ⟨a, heq⟩
    have hledger : s.record l net = s.ledger := by
      rw [record.eq_def]
      split
      · exact absurd rfl (hl _)
      · rfl
    rw [hledger]
    rcases Net.keepsBody_step hl hnet with hview | hno
    · have hstate : net.pb.state = s.net.pb.state := congrArg BodyView.state hview
      have hlen : net.pb.httpContentLen = s.net.pb.httpContentLen := congrArg BodyView.contentLen hview
      refine ⟨hview ▸ h.reading, ?_, ?_, ?_⟩
      · rw [hstate]
        exact h.mode
      · rw [hview]
        exact h.chunked
      · rw [hview, hstate, hlen]
        exact h.counted
    · exact sound_of_not_body h (reading_of_not_receiving hno) (Pb.readsHeaders_of_not_receiving hno).2

lemma sound_of_reachable {o : PubnubOptions} (hr : (bodyMachine o).Reachable Machine.anyStep s) :
    s.Sound := by
  refine hr.invariant (P := Sound) ?_ fun s l s' h _ hs => sound_step h hs
  refine ⟨trivial, fun h => ?_, fun h => ?_, fun _ => ⟨fun h => ?_, fun r h => ?_⟩⟩
  all_goals cases h

/-- What has been copied, while a body in chunks is read. -/
lemma replySoFar_prefix {pb : Pb} {b : ChunkedBody} {ahead behind : Bytes}
    (hc : pb.state.readsChunks = true) (h : pb.bodyView.ChunksRight b ahead behind) :
    pb.replySoFar <+: b.data := by
  have hat (h : ∃ done todo, b.chunks = done ++ todo ∧
      pb.bodyView.AtHead done todo b.last ahead behind) : pb.replySoFar <+: b.data := by
    obtain ⟨done, todo, hsplit, hhead⟩ := h
    rw [hhead.holds.replySoFar, ChunkedBody.data, hsplit, chunkData_append]
    exact List.prefix_append _ _
  have hin (h : ∃ done c todo k, b.chunks = done ++ c :: todo ∧
      pb.bodyView.InChunk done c todo b.last ahead behind k) : pb.replySoFar <+: b.data := by
    obtain ⟨done, c, todo, k, hsplit, hk⟩ := h
    rw [hk.holds.replySoFar, ChunkedBody.data, hsplit, chunkData_append, chunkData_cons]
    exact (List.prefix_append_right_inj _).mpr ((List.take_prefix k c.data).trans (List.prefix_append _ _))
  cases hst : pb.state with
  | rxChunkLen | rxChunkLenLine =>
      rw [ChunksRight, show pb.bodyView.state = _ from hst] at h
      exact hat h
  | rxBodyChunk | rxBodyChunkWait =>
      rw [ChunksRight, show pb.bodyView.state = _ from hst] at h
      exact hin h
  | _ =>
      rw [hst] at hc
      cases hc

/-- **A body in chunks.**  In every run, in whatever pieces the chunks, what trails them and the lines
    between them arrive: while what has been received since the empty line is how a body in chunks begins,
    what has been copied is how its data begin, and the reply with which `finish` is called is its data. -/
theorem chunked_reply (o : PubnubOptions) (s : BodyRun)
    (hr : (bodyMachine o).Reachable Machine.anyStep s) (hc : s.ledger.chunked = true)
    (b : ChunkedBody) (hlt : b.data.length + 2 < 2 ^ 32) (ahead behind : Bytes)
    (heq : s.ledger.received ++ ahead = b.bytes ++ behind) :
    (s.net.pb.state.readsBody = true → s.net.pb.replySoFar <+: b.data) ∧
      ∀ r, s.ledger.reply = some r → r = b.data := by
  have hsound := sound_of_reachable hr
  obtain ⟨hright, hreply⟩ := hsound.chunked hc b ahead behind hlt heq
  exact ⟨fun hbody => replySoFar_prefix ((hsound.mode hbody).symm.trans hc) hright, hreply⟩

instance (s : Bytes) : Decidable (IsHex s) :=
  inferInstanceAs (Decidable (∀ c ∈ s, (digitValue 16 c).isSome = true))

/-- The body of that response. -/
def twoChunks : ChunkedBody where
  chunks := [
    { head := ⟨ascii "3", [], by decide, by decide +kernel, trivial, by decide⟩, data := ascii "[1,",
      length_data := by decide, pos := by decide },
    { head := ⟨ascii "2", [], by decide, by decide +kernel, trivial, by decide⟩, data := ascii "2]",
      length_data := by decide, pos := by decide }]
  last := ⟨ascii "0", [], by decide, by decide +kernel, trivial, by decide⟩
  length_last := by decide

theorem chunked_reply_twoChunks :
    ∃ s, (bodyMachine {}).Reachable Machine.anyStep s ∧ s.ledger.reply.isSome = true ∧
      ∀ r, s.ledger.reply = some r → r = ascii "[1,2]" := by
  obtain ⟨s, hr, hs⟩ := Machine.exists_reachable_of_replay (bodyMachine {}) (fun _ _ => true)
    Net.chunkedRun (fun s => s.ledger.chunked && s.ledger.reply.isSome &&
      s.ledger.received == twoChunks.bytes ++ [13, 10]) (fun _ _ _ => trivial) (by decide +kernel)
  simp only [Bool.and_eq_true, beq_iff_eq] at hs
  obtain ⟨⟨hc, hsome⟩, hreceived⟩ := hs
  refine ⟨s, hr, hsome, ?_⟩
  exact (chunked_reply {} s hr hc twoChunks (by decide) [] [13, 10] (by rw [hreceived, List.append_nil])).2

/-- **A body of a known length.**  In every run, in whatever pieces the body arrives, the reply with which
    `finish` is called is as long as the headers say, and is how what has been received since the empty
    line begins. -/
theorem counted_reply (o : PubnubOptions) (s : BodyRun)
    (hr : (bodyMachine o).Reachable Machine.anyStep s) (hc : s.ledger.chunked = false) (r : Bytes)
    (hreply : s.ledger.reply = some r) : r <+: s.ledger.received ∧ r.length = s.ledger.length :=
  ((sound_of_reachable hr).counted hc).2 r hreply

/-- A response whose length is announced, in two pieces. -/
def countedRun : List NetStep :=
  answeredRun timeRequest (ascii "HTTP/1.1 200 OK\r\nContent-Length: 5\r\n\r\n[1,") ++
    List.replicate 7 (.fsm willing) ++ [.arrive (ascii "2]"), .pollEvent true, .processQueue] ++
    List.replicate 2 (.fsm willing)

theorem counted_reply_twoPieces : ∃ s, (bodyMachine {}).Reachable Machine.anyStep s ∧
    s.ledger.reply = some (ascii "[1,2]") ∧ ascii "[1,2]" <+: s.ledger.received ∧
      (ascii "[1,2]").length = s.ledger.length := by
  obtain ⟨s, hr, hs⟩ := Machine.exists_reachable_of_replay (bodyMachine {}) (fun _ _ => true)
    countedRun (fun s => !s.ledger.chunked && s.ledger.reply == some (ascii "[1,2]"))
    (fun _ _ _ => trivial) (by decide +kernel)
  simp only [Bool.and_eq_true, Bool.not_eq_true', beq_iff_eq] at hs
  exact ⟨s, hr, hs.2, counted_reply {} s hr hs.1 _ hs.2⟩

/-- **The assertions hold.**  In no run does an assertion fail in a state that reads a body, neither of
    the state machine nor of the platform layer. -/
theorem body_assertions (o : PubnubOptions) (s : BodyRun)
    (hr : (bodyMachine o).Reachable Machine.anyStep s) (hb : s.net.pb.state.readsBody = true) (a : Answer) :
    (s.net.pb.pass a).isSome = true := by
  obtain ⟨p, hp, -, -⟩ := exists_bodyPass (sound_of_reachable hr).reading hb a
  rw [hp, Option.isSome_some]

/-- In the middle of the first chunk. -/
theorem body_assertions_chunk : ∃ s, (bodyMachine {}).Reachable Machine.anyStep s ∧
    s.net.pb.state = .rxBodyChunkWait ∧ ∀ a, (s.net.pb.pass a).isSome = true := by
  obtain ⟨s, hr, hs⟩ := Machine.exists_reachable_of_replay (bodyMachine {}) (fun _ _ => true)
    (Net.chunkedRun.take 18) (fun s => s.net.pb.state == .rxBodyChunkWait)
    (fun _ _ _ => trivial) (by decide +kernel)
  rw [beq_iff_eq] at hs
  exact ⟨s, hr, hs, body_assertions {} s hr (by rw [hs]; rfl)⟩

end BodyRun

end PubNub
