import PubNubCore.Network.Headers

/-!
# Compressed responses

`core/pbgzip_decompress.c` and what of `core/pubnub_netcore.c` fills the reply buffer it works on.
A body in the format of `gzip` is inflated into a second buffer, and then the two buffers change
places, or, in a build with static buffers, the text is copied back.

`ReplyBuffers` holds both buffers with their capacities, which the program does not keep, and a
list of everything that has been written to either of them.  The inflater of `lib/miniz` is a
parameter.
-/

namespace PubNub

/-! ## The format -/

/-- `GZIP_HEADER_LENGTH_BYTES`. -/
def gzipHeaderLengthBytes : Nat := 10

/-- `GZIP_FOOTER_LENGTH_BYTES`. -/
def gzipFooterLengthBytes : Nat := 8

/-- What `pbgzip_decompress` checks: the length, the magic number, the method, and that no flag is
    set. -/
def hasGzipHeader (data : Bytes) : Bool :=
  decide (gzipHeaderLengthBytes + gzipFooterLengthBytes ≤ data.length) &&
    data.take 4 == [0x1f, 0x8b, 8, 0]

/-- The size of the text modulo 2^32, in the last four bytes. -/
def unpackedSize (data : Bytes) : Nat :=
  (data.drop (data.length - 4)).foldr (fun c n => c.toNat + 256 * n) 0

/-- What stands between the header and the footer. -/
def deflated (data : Bytes) : Bytes :=
  (data.drop gzipHeaderLengthBytes).take
    (data.length - (gzipHeaderLengthBytes + gzipFooterLengthBytes))

/-- `tinfl_decompress` with a buffer of the given size that does not wrap around: whether its
    status is `TINFL_STATUS_DONE`, and what it has written. -/
structure Tinfl where
  decompress : Bytes → Nat → Bool × Bytes

/-- The inflater does what it says for a format in which data stands for a text, if for any. -/
structure Tinfl.Correct (t : Tinfl) (inflate : Bytes → Option Bytes) : Prop where
  within : ∀ data size, (t.decompress data size).2.length ≤ size
  done : ∀ data size, (t.decompress data size).1 = true →
    inflate data = some (t.decompress data size).2
  complete : ∀ data text size, inflate data = some text → text.length ≤ size →
    t.decompress data size = (true, text)

/-- The text for which data in the format of `gzip` stand, where no flag is set and the size is
    right. -/
def gunzip (inflate : Bytes → Option Bytes) (data : Bytes) : Option Bytes :=
  if hasGzipHeader data then
    (inflate (deflated data)).filter fun text => text.length == unpackedSize data
  else none

/-! ## The buffers -/

/-- The build options: `PUBNUB_DYNAMIC_REPLY_BUFFER`, `PUBNUB_REPLY_MAXLEN`, and the number of
    values of `size_t`. -/
structure ReplyBuild where
  dynamicReplyBuffer : Bool
  replyMaxlen : Nat
  sizeMax : Nat
  le_sizeMax : 2 ^ 32 ≤ sizeMax

/-- A request for a reply buffer of so many bytes does not wrap around, where it succeeds. -/
def ReplyBuild.LengthFits (b : ReplyBuild) (bytes : Nat) (alloc : Bool) : Prop :=
  if b.dynamicReplyBuffer then alloc = true → bytes + 1 < 2 ^ 32
  else bytes % 2 ^ 32 < b.replyMaxlen + 1 → bytes < 2 ^ 32

instance (b : ReplyBuild) (bytes : Nat) (alloc : Bool) : Decidable (b.LengthFits bytes alloc) :=
  inferInstanceAs (Decidable (ite _ _ _))

/-- A block of memory: what has been written to it, and its size. -/
structure HeapBlock where
  bytes : Bytes
  capacity : Nat
  deriving DecidableEq

/-- What is behind a pointer. -/
def bytesOf (m : Option HeapBlock) : Bytes := m.elim [] (·.bytes)

/-- How much may be written behind a pointer. -/
def capacityOf (m : Option HeapBlock) : Nat := m.elim 0 (·.capacity)

/-- `realloc`. -/
def HeapBlock.realloc (m : Option HeapBlock) (size : Nat) : HeapBlock := ⟨(bytesOf m).take size, size⟩

/-- Bytes are written from an index on. -/
def HeapBlock.write (m : HeapBlock) (index : Nat) (src : Bytes) : HeapBlock :=
  { m with bytes := m.bytes.take index ++ src ++ m.bytes.drop (index + src.length) }

/-- The two buffers of a context. -/
structure ReplyBuffers where
  httpReply : Option HeapBlock
  httpBufLen : Nat
  decompHttpReply : Option HeapBlock
  decompBufSize : Nat
  writes : List Copy
  deriving DecidableEq

namespace ReplyBuffers

variable (b : ReplyBuild) (t : Tinfl) (m : ReplyBuffers)

/-- `pbcc_init`. -/
def init : ReplyBuffers :=
  let m : Option HeapBlock :=
    if b.dynamicReplyBuffer then none else some ⟨[], b.replyMaxlen + 1⟩
  ⟨m, 0, m, 0, []⟩

/-- What has been received. -/
def received : Bytes := (bytesOf m.httpReply).take m.httpBufLen

/-- `pbcc_realloc_reply_buffer`.  Its argument is an `unsigned`, and so is `bytes + 1`. -/
def reallocReplyBuffer (bytes : Nat) (alloc : Bool) : ReplyBuffers × Bool :=
  if b.dynamicReplyBuffer then
    if alloc then
      ({ m with httpReply := some (HeapBlock.realloc m.httpReply ((bytes % 2 ^ 32 + 1) % 2 ^ 32)) },
        true)
    else (m, false)
  else (m, decide (bytes % 2 ^ 32 < b.replyMaxlen + 1))

/-- `pbcc_ensure_reply_buffer`. -/
def ensureReplyBuffer (alloc : Bool) : ReplyBuffers × Bool :=
  match m.httpReply with
  | some _ => (m, true)
  | none => if alloc then ({ m with httpReply := some ⟨[], 1⟩ }, true) else (m, false)

/-- Bytes are written to `core.http_reply`. -/
def copyToReply (index : Nat) (src : Bytes) : ReplyBuffers :=
  { m with
    httpReply := m.httpReply.map (·.write index src)
    writes := ⟨index, src.length, capacityOf m.httpReply⟩ :: m.writes }

/-- `inflate_total_to_context_buffer`. -/
def inflateTotalToContextBuffer (data : Bytes) (outLen : Nat) : ReplyBuffers × PubnubRes :=
  let r := t.decompress data outLen
  ({ m with
      decompHttpReply := m.decompHttpReply.map (·.write 0 r.2)
      writes := ⟨0, r.2.length, capacityOf m.decompHttpReply⟩ :: m.writes },
    if r.1 = true ∧ r.2.length = outLen then .ok else .badCompressionFormat)

/-- `swap_reply_buffer`. -/
def swapReplyBuffer : ReplyBuffers :=
  if b.dynamicReplyBuffer then
    { m with
      httpReply := m.decompHttpReply
      httpBufLen := m.decompBufSize
      decompHttpReply := m.httpReply
      decompBufSize := m.httpBufLen }
  else
    { m.copyToReply 0 ((bytesOf m.decompHttpReply).take m.decompBufSize) with
      httpBufLen := m.decompBufSize }

/-- The part of `inflate_total` that makes room for the text. -/
def makeRoom (outLen : Nat) (alloc : Bool) : Option ReplyBuffers :=
  if b.dynamicReplyBuffer then
    if m.decompBufSize < outLen then
      if alloc then
        some { m with
          decompHttpReply := some (HeapBlock.realloc m.decompHttpReply ((outLen + 1) % b.sizeMax)) }
      else none
    else some m
  else if b.replyMaxlen + 1 ≤ outLen then none else some m

/-- `inflate_total`. -/
def inflateTotal (data : Bytes) (outLen : Nat) (alloc : Bool) : ReplyBuffers × PubnubRes :=
  match m.makeRoom b outLen alloc with
  | none => (m, .replyTooBig)
  | some m =>
      let r := m.inflateTotalToContextBuffer t data outLen
      if r.2 = .ok then ({ r.1 with decompBufSize := outLen }.swapReplyBuffer b, .ok) else r

/-- `pbgzip_decompress`. -/
def pbgzipDecompress (alloc : Bool) : ReplyBuffers × PubnubRes :=
  if hasGzipHeader m.received then
    m.inflateTotal b t (deflated m.received) (unpackedSize m.received) alloc
  else (m, .badCompressionFormat)

/-! ## What is written stays inside -/

/-- Everything has been written inside its buffer; what is recorded of the second buffer is less
    than its size, if there is one. -/
structure Sized : Prop where
  inside : ∀ c ∈ m.writes, c.index + c.length ≤ c.capacity
  static : b.dynamicReplyBuffer = false →
    ∃ r d, m.httpReply = some r ∧ m.decompHttpReply = some d ∧
      r.capacity = b.replyMaxlen + 1 ∧ d.capacity = b.replyMaxlen + 1
  reply : ∀ r, m.httpReply = some r → 0 < r.capacity
  spare : m.decompBufSize < capacityOf m.decompHttpReply ∨
    (m.decompHttpReply = none ∧ m.decompBufSize = 0)

variable {b t m}

lemma sized_init : (init b).Sized b := by
  cases hb : b.dynamicReplyBuffer with
  | false =>
      refine ⟨by simp [init], fun _ => ?_, ?_, ?_⟩
      · exact ⟨⟨[], b.replyMaxlen + 1⟩, ⟨[], b.replyMaxlen + 1⟩, by simp [init, hb],
          by simp [init, hb], rfl, rfl⟩
      · rintro r hr
        obtain rfl : ⟨[], b.replyMaxlen + 1⟩ = r := by simpa [init, hb] using hr
        exact Nat.succ_pos _
      · exact .inl (by simp [init, hb, capacityOf])
  | true =>
      refine ⟨by simp [init], fun hs => by simp [hb] at hs, ?_, ?_⟩
      · rintro r hr
        simp [init, hb] at hr
      · exact .inr ⟨by simp [init, hb], rfl⟩

@[simp] lemma capacity_write (r : HeapBlock) (index : Nat) (src : Bytes) :
    (r.write index src).capacity = r.capacity := rfl

@[simp] lemma capacityOf_map_write (r : Option HeapBlock) (index : Nat) (src : Bytes) :
    capacityOf (r.map (·.write index src)) = capacityOf r := by
  cases r <;> rfl

/-- Writing to the reply. -/
lemma Sized.copyToReply (h : m.Sized b) {index : Nat} {src : Bytes}
    (hfit : index + src.length ≤ capacityOf m.httpReply) : (m.copyToReply index src).Sized b where
  inside := by
    rintro c hc
    rcases List.mem_cons.mp hc with rfl | hc
    · exact hfit
    · exact h.inside c hc
  static hs := by
    obtain ⟨r, d, hr, hd, hrc, hdc⟩ := h.static hs
    exact ⟨r.write index src, d, by simp [ReplyBuffers.copyToReply, hr], hd, hrc, hdc⟩
  reply := by
    rintro r hr
    obtain ⟨r', hr', rfl⟩ := Option.map_eq_some_iff.mp hr
    exact h.reply r' hr'
  spare := h.spare

lemma reallocReplyBuffer_failed {bytes : Nat} {alloc : Bool}
    (hfails : (m.reallocReplyBuffer b bytes alloc).2 = false) :
    (m.reallocReplyBuffer b bytes alloc).1 = m := by
  unfold reallocReplyBuffer at hfails ⊢
  split_ifs at hfails ⊢
  · rfl
  · rfl

/-- A buffer of the size that has been asked for. -/
lemma Sized.realloc (h : m.Sized b) {bytes : Nat} {alloc : Bool} (hfit : b.LengthFits bytes alloc)
    (hdone : (m.reallocReplyBuffer b bytes alloc).2 = true) :
    (m.reallocReplyBuffer b bytes alloc).1.Sized b ∧
      bytes < capacityOf (m.reallocReplyBuffer b bytes alloc).1.httpReply ∧
      (m.reallocReplyBuffer b bytes alloc).1.httpBufLen = m.httpBufLen ∧
      ∀ n ≤ bytes, (bytesOf (m.reallocReplyBuffer b bytes alloc).1.httpReply).take n =
        (bytesOf m.httpReply).take n := by
  unfold reallocReplyBuffer at hdone ⊢
  unfold ReplyBuild.LengthFits at hfit
  cases hb : b.dynamicReplyBuffer with
  | false =>
      simp only [hb, Bool.false_eq_true, if_false, decide_eq_true_eq] at hdone hfit
      rw [if_neg (by simp)]
      obtain ⟨r, d, hr, hd, hrc, hdc⟩ := h.static hb
      refine ⟨h, ?_, rfl, fun _ _ => rfl⟩
      have hlt := hfit hdone
      simp only [hr, capacityOf, Option.elim_some, hrc]
      omega
  | true =>
      simp only [hb, if_true] at hdone hfit ⊢
      cases alloc with
      | false => simp at hdone
      | true =>
          have hsize : (bytes % 2 ^ 32 + 1) % 2 ^ 32 = bytes + 1 := by
            have := hfit rfl
            omega
          rw [if_pos rfl, hsize]
          refine ⟨⟨h.inside, fun hs => by simp [hb] at hs, ?_, h.spare⟩, ?_, rfl, fun n hn => ?_⟩
          · rintro r hr
            cases hr
            exact Nat.succ_pos _
          · exact Nat.lt_succ_self _
          · exact List.take_take.trans (by rw [Nat.min_eq_left (by omega)])

/-- There is a buffer, and it has room for the final NUL. -/
lemma Sized.ensure (h : m.Sized b) {alloc : Bool} (hdone : (m.ensureReplyBuffer alloc).2 = true) :
    (m.ensureReplyBuffer alloc).1.Sized b ∧
      0 < capacityOf (m.ensureReplyBuffer alloc).1.httpReply ∧
      capacityOf m.httpReply ≤ capacityOf (m.ensureReplyBuffer alloc).1.httpReply ∧
      (m.ensureReplyBuffer alloc).1.httpBufLen = m.httpBufLen ∧
      (m.ensureReplyBuffer alloc).1.decompHttpReply = m.decompHttpReply ∧
      (m.ensureReplyBuffer alloc).1.decompBufSize = m.decompBufSize ∧
      bytesOf (m.ensureReplyBuffer alloc).1.httpReply = bytesOf m.httpReply := by
  cases hreply : m.httpReply with
  | some r =>
      have hsame : m.ensureReplyBuffer alloc = (m, true) := by rw [ensureReplyBuffer, hreply]
      rw [hsame]
      exact ⟨h, by simpa [hreply, capacityOf] using h.reply r hreply, by rw [hreply], rfl, rfl, rfl,
        by rw [hreply]⟩
  | none =>
      cases alloc with
      | false => simp [ensureReplyBuffer, hreply] at hdone
      | true =>
          have hnew : m.ensureReplyBuffer true = ({ m with httpReply := some ⟨[], 1⟩ }, true) := by
            rw [ensureReplyBuffer, hreply]
            rfl
          rw [hnew]
          refine ⟨⟨h.inside, fun hs => ?_, ?_, h.spare⟩, Nat.one_pos, Nat.zero_le _, rfl, rfl, rfl, rfl⟩
          · obtain ⟨r, -, hr, -⟩ := h.static hs
            simp [hreply] at hr
          · rintro r hr
            cases hr
            exact Nat.one_pos

/-- The second buffer has room for the text, unless the text is empty and there is no buffer. -/
lemma Sized.makeRoom (h : m.Sized b) {outLen : Nat} {alloc : Bool} {m' : ReplyBuffers}
    (hfit : b.dynamicReplyBuffer = true → m.decompBufSize < outLen → outLen + 1 < b.sizeMax)
    (hdone : m.makeRoom b outLen alloc = some m') :
    m'.Sized b ∧ m'.httpReply = m.httpReply ∧ m'.httpBufLen = m.httpBufLen ∧
      (outLen < capacityOf m'.decompHttpReply ∨
        (b.dynamicReplyBuffer = true ∧ m.decompHttpReply = none ∧ outLen = 0)) := by
  unfold ReplyBuffers.makeRoom at hdone
  split_ifs at hdone with hb hgrow halloc hbig
  · cases hdone
    have hsize : (outLen + 1) % b.sizeMax = outLen + 1 := Nat.mod_eq_of_lt (hfit hb hgrow)
    have hcapacity : capacityOf (some (HeapBlock.realloc m.decompHttpReply
        ((outLen + 1) % b.sizeMax))) = outLen + 1 := hsize
    refine ⟨⟨h.inside, fun hs => by simp [hb] at hs, h.reply, .inl ?_⟩, rfl, rfl, .inl ?_⟩
    · show m.decompBufSize < capacityOf (some _)
      omega
    · show outLen < capacityOf (some _)
      omega
  · cases hdone
    refine ⟨h, rfl, rfl, ?_⟩
    rcases h.spare with hlt | ⟨hnone, hzero⟩
    · exact .inl (by omega)
    · exact .inr ⟨hb, hnone, by omega⟩
  · cases hdone
    obtain ⟨r, d, hr, hd, hrc, hdc⟩ := h.static (by simpa using hb)
    refine ⟨h, rfl, rfl, .inl ?_⟩
    simp only [hd, capacityOf, Option.elim_some, hdc]
    omega

/-- The inflater writes inside the second buffer. -/
lemma Sized.inflateTotalToContextBuffer (h : m.Sized b) {inflate : Bytes → Option Bytes}
    (ht : t.Correct inflate) {data : Bytes} {outLen : Nat}
    (hfit : outLen ≤ capacityOf m.decompHttpReply) :
    (m.inflateTotalToContextBuffer t data outLen).1.Sized b where
  inside := by
    rintro c hc
    rcases List.mem_cons.mp hc with rfl | hc
    · have := ht.within data outLen
      simp only
      omega
    · exact h.inside c hc
  static hs := by
    obtain ⟨r, d, hr, hd, hrc, hdc⟩ := h.static hs
    exact ⟨r, d.write 0 (t.decompress data outLen).2, hr,
      by simp [ReplyBuffers.inflateTotalToContextBuffer, hd], hrc, hdc⟩
  reply := h.reply
  spare := by
    rcases h.spare with hlt | ⟨hnone, hzero⟩
    · exact .inl (by simpa [ReplyBuffers.inflateTotalToContextBuffer] using hlt)
    · exact .inr ⟨by simp [ReplyBuffers.inflateTotalToContextBuffer, hnone], hzero⟩

/-- The reply buffer holds a text, and has room for the final NUL. -/
structure Contains (m : ReplyBuffers) (text : Bytes) : Prop where
  httpBufLen : m.httpBufLen = text.length
  bytes : (bytesOf m.httpReply).take text.length = text
  room : text.length < capacityOf m.httpReply

lemma Contains.received {text : Bytes} (h : m.Contains text) : m.received = text := by
  rw [ReplyBuffers.received, h.httpBufLen, h.bytes]

/-- The text that has been inflated becomes the reply. -/
lemma Sized.swapReplyBuffer (h : m.Sized b) {text : Bytes}
    (hroom : m.httpBufLen < capacityOf m.httpReply)
    (hspare : text.length < capacityOf m.decompHttpReply)
    (htext : (bytesOf m.decompHttpReply).take text.length = text) :
    ({ m with decompBufSize := text.length }.swapReplyBuffer b).Sized b ∧
      ({ m with decompBufSize := text.length }.swapReplyBuffer b).Contains text := by
  unfold ReplyBuffers.swapReplyBuffer
  cases hb : b.dynamicReplyBuffer with
  | false =>
      rw [if_neg (by simp), htext]
      obtain ⟨r, d, hr, hd, hrc, hdc⟩ := h.static hb
      have hfit : text.length < capacityOf m.httpReply := by
        simp only [hr, hd, capacityOf, Option.elim_some, hrc, hdc] at hspare ⊢
        exact hspare
      have hsized : { m with decompBufSize := text.length }.Sized b :=
        ⟨h.inside, h.static, h.reply, .inl hspare⟩
      have hcopied : ({ m with decompBufSize := text.length }.copyToReply 0 text).Sized b :=
        hsized.copyToReply (by simpa using hfit.le)
      refine ⟨⟨hcopied.inside, hcopied.static, hcopied.reply, hcopied.spare⟩, rfl, ?_, ?_⟩
      · simp [ReplyBuffers.copyToReply, hr, bytesOf, HeapBlock.write]
      · simpa [ReplyBuffers.copyToReply] using hfit
  | true =>
      rw [if_pos rfl]
      refine ⟨⟨h.inside, fun hs => by simp [hb] at hs, ?_, .inl hroom⟩, rfl, htext, hspare⟩
      rintro r hr
      simp only at hr
      simp only [hr, capacityOf, Option.elim_some] at hspare
      omega

/-- What `pbgzip_decompress` comes to. -/
inductive Unpacked (b : ReplyBuild) (packed : Option Bytes) (r : ReplyBuffers × PubnubRes) : Prop
  | text (text : Bytes) (hpacked : packed = some text) (hrslt : r.2 = .ok)
      (hcontains : r.1.Contains text)
  | malformed (hpacked : packed = none) (hrslt : r.2 = .badCompressionFormat)
  | tooBig (hrslt : r.2 = .replyTooBig)

/-- **The body is inflated, inside the buffers.** -/
lemma Sized.pbgzipDecompress (h : m.Sized b) {inflate : Bytes → Option Bytes}
    (ht : t.Correct inflate) (hroom : m.httpBufLen < capacityOf m.httpReply) {alloc : Bool}
    (hfits : b.dynamicReplyBuffer = true →
      (m.decompHttpReply = none → gunzip inflate m.received ≠ some []) ∧
      (hasGzipHeader m.received = true → m.decompBufSize < unpackedSize m.received →
        unpackedSize m.received + 1 < b.sizeMax)) :
    (m.pbgzipDecompress b t alloc).1.Sized b ∧
      Unpacked b (gunzip inflate m.received) (m.pbgzipDecompress b t alloc) := by
  unfold ReplyBuffers.pbgzipDecompress
  unfold gunzip at hfits ⊢
  by_cases hheader : hasGzipHeader m.received = true
  swap
  · rw [if_neg hheader, if_neg hheader]
    exact ⟨h, .malformed rfl rfl⟩
  rw [if_pos hheader] at hfits
  rw [if_pos hheader, if_pos hheader]
  unfold ReplyBuffers.inflateTotal
  generalize deflated m.received = data at hfits ⊢
  generalize unpackedSize m.received = outLen at hfits ⊢
  cases hmade : m.makeRoom b outLen alloc with
  | none => exact ⟨h, .tooBig rfl⟩
  | some m' =>
      obtain ⟨hsized, hreply, hbufLen, hfit⟩ := h.makeRoom (fun hb => (hfits hb).2 hheader) hmade
      have hle : outLen ≤ capacityOf m'.decompHttpReply := by omega
      have hinflated : (m'.inflateTotalToContextBuffer t data outLen).1.Sized b :=
        hsized.inflateTotalToContextBuffer ht hle
      by_cases hok : (t.decompress data outLen).1 = true ∧
          (t.decompress data outLen).2.length = outLen
      · have hrslt : (m'.inflateTotalToContextBuffer t data outLen).2 = .ok := if_pos hok
        have htext := ht.done data outLen hok.1
        have hlength : outLen = (t.decompress data outLen).2.length := hok.2.symm
        have hspare : outLen < capacityOf m'.decompHttpReply := by
          refine hfit.resolve_right ?_
          rintro ⟨hb, hnone, hzero⟩
          have hnil : (t.decompress data outLen).2 = [] :=
            List.eq_nil_of_length_eq_zero (hok.2.trans hzero)
          exact (hfits hb).1 hnone (by rw [htext, hnil, hzero]; rfl)
        obtain ⟨d, hd⟩ : ∃ d, m'.decompHttpReply = some d := by
          rw [← Option.ne_none_iff_exists']
          rintro hnone
          simp [hnone, capacityOf] at hspare
        have hbytes : (bytesOf (m'.inflateTotalToContextBuffer t data outLen).1.decompHttpReply).take
            (t.decompress data outLen).2.length = (t.decompress data outLen).2 := by
          simp [ReplyBuffers.inflateTotalToContextBuffer, hd, bytesOf, HeapBlock.write]
        have hswapped := hinflated.swapReplyBuffer
          (by simpa [ReplyBuffers.inflateTotalToContextBuffer, hreply, hbufLen] using hroom)
          (by simpa [ReplyBuffers.inflateTotalToContextBuffer, ← hlength] using hspare) hbytes
        dsimp only
        rw [if_pos hrslt]
        rw [← hlength] at hswapped
        exact ⟨hswapped.1, .text _ (by rw [htext]; simp [hok.2]) rfl hswapped.2⟩
      · have hrslt : (m'.inflateTotalToContextBuffer t data outLen).2 = .badCompressionFormat :=
          if_neg hok
        dsimp only
        rw [if_neg (by simp [hrslt])]
        refine ⟨hinflated, .malformed ?_ hrslt⟩
        -- A text of this size would have been inflated.
        rw [Option.filter_eq_none_iff]
        rintro text htext hlength
        have hlen : text.length = outLen := by simpa using hlength
        rw [ht.complete data text outLen htext hlen.le] at hok
        exact hok ⟨rfl, hlen⟩

end ReplyBuffers

end PubNub
