import PubNubCore.Compression.Crc32
import PubNubCore.Network.Decompression
import PubNubCore.Lib.CharArray

/-!
# Compressing a message

`core/pbgzip_compress.c`.  The format is put around what the deflater of `lib/miniz` makes of the
message: a header in front, and behind it the checksum of the message and its size.  A message which
that does not make smaller by a tenth is not packed.

`pbgzip_compress_right` says what is in the buffer if the message is packed, and `gzip_round_trip`
that `pbgzip_decompress` has the message back from it.  The deflater is a parameter, as the inflater
is.
-/

namespace PubNub

/-! ## The code -/

/-- `tdefl_status`. -/
inductive TdeflStatus
  | badParam | putBufFailed | okay | done
  deriving DecidableEq

/-- `tdefl_compress` with `TDEFL_FINISH` into a buffer of the given size: its status, how much of the
    message it has taken, and what it has written. -/
structure Tdefl where
  compress : Bytes → Nat → TdeflStatus × Nat × Bytes

/-- The deflater does what it says for a format in which data stands for a text, if for any. -/
structure Tdefl.Correct (d : Tdefl) (inflate : Bytes → Option Bytes) : Prop where
  within : ∀ message size, (d.compress message size).2.2.length ≤ size
  done : ∀ message size, (d.compress message size).1 = .done →
    (d.compress message size).2.1 = message.length →
      inflate (d.compress message size).2.2 = some message

/-- `PUBNUB_MINIMAL_ACCEPTABLE_COMPRESSION_RATIO`. -/
def minimalAcceptableCompressionRatio : Nat := 10

/-- The bytes of 32 bits, the least significant one first. -/
def littleEndian (n : Nat) : Bytes := (List.range 4).map fun k => UInt8.ofNat (n / 256 ^ k)

/-- The header: the magic number, the method, and zeros. -/
def gzipHeader : Bytes := [0x1f, 0x8b, 8, 0, 0, 0, 0, 0, 0, 0]

/-- How long a message with the header and the footer is. -/
def packedSize (compressed : Nat) : Nat := gzipHeaderLengthBytes + compressed + gzipFooterLengthBytes

/-- The compression is insufficient; a `size_t` has 64 bits. -/
def tooLittle (unpacked packed : Nat) : Bool :=
  decide (unpacked < packed) ||
    decide ((unpacked - packed) * 100 % 2 ^ 64 / unpacked < minimalAcceptableCompressionRatio)

/-- `deflate_total_to_context_buffer`, with the buffer, `gzip_msg_len` and the result. -/
def deflateTotalToContextBuffer {n : Nat} (d : Tdefl) (buf : CharArray n) (message : Bytes) :
    Option (CharArray n × Nat × PubnubRes) :=
  let r := d.compress message (n - (gzipHeaderLengthBytes + gzipFooterLengthBytes))
  (buf.write gzipHeaderLengthBytes r.2.2).bind fun buf =>
    if r.1 = .done ∧ r.2.1 = message.length then
      let size := packedSize r.2.2.length
      if tooLittle message.length size then some (buf, 0, .started)
      else
        (buf.write (size - 8) (littleEndian (pbcrc32 message).toNat)).bind fun buf =>
          (buf.write (size - 4) (littleEndian message.length)).map fun buf => (buf, size, .ok)
    else some (buf, 0, .badCompressionFormat)

/-- `pbgzip_compress`; `none` says that something is written outside of the buffer. -/
def pbgzipCompress {n : Nat} (d : Tdefl) (buf : CharArray n) (message : Bytes) :
    Option (CharArray n × Nat × PubnubRes) :=
  (buf.write 0 gzipHeader).bind fun buf => deflateTotalToContextBuffer d buf message

/-! ## The format -/

/-- A message in the format. -/
def gzipFile (compressed message : Bytes) : Bytes :=
  gzipHeader ++ compressed ++ littleEndian (pbcrc32 message).toNat ++ littleEndian message.length

section Format

variable {compressed message : Bytes}

lemma length_littleEndian (n : Nat) : (littleEndian n).length = 4 := rfl

lemma length_gzipFile : (gzipFile compressed message).length = packedSize compressed.length := by
  rw [gzipFile]
  simp only [List.length_append, length_littleEndian]
  rfl

lemma hasGzipHeader_gzipFile : hasGzipHeader (gzipFile compressed message) = true := by
  have hlength : gzipHeaderLengthBytes + gzipFooterLengthBytes ≤ (gzipFile compressed message).length := by
    rw [length_gzipFile, packedSize]
    omega
  rw [hasGzipHeader, decide_eq_true hlength, gzipFile]
  rfl

/-- What is between header and footer. -/
lemma deflated_gzipFile : deflated (gzipFile compressed message) = compressed := by
  rw [deflated, length_gzipFile, packedSize, gzipFile, List.append_assoc, List.append_assoc]
  have hheader : (gzipHeader ++ (compressed ++ (littleEndian (pbcrc32 message).toNat ++
      littleEndian message.length))).drop gzipHeaderLengthBytes =
        compressed ++ (littleEndian (pbcrc32 message).toNat ++ littleEndian message.length) := rfl
  rw [hheader, show gzipHeaderLengthBytes + compressed.length + gzipFooterLengthBytes -
    (gzipHeaderLengthBytes + gzipFooterLengthBytes) = compressed.length by omega, List.take_left]

lemma foldr_littleEndian {n : Nat} (h : n < 2 ^ 32) :
    (littleEndian n).foldr (fun c k => c.toNat + 256 * k) 0 = n := by
  have hbyte (m : Nat) : (UInt8.ofNat m).toNat = m % 256 := UInt8.toNat_ofNat'
  simp only [littleEndian, List.range, List.range.loop, List.map_cons, List.map_nil, List.foldr_cons,
    List.foldr_nil, hbyte]
  norm_num
  omega

/-- The size that is stored. -/
lemma unpackedSize_gzipFile (h : message.length < 2 ^ 32) :
    unpackedSize (gzipFile compressed message) = message.length := by
  have hdrop : (gzipFile compressed message).drop ((gzipFile compressed message).length - 4) =
      littleEndian message.length := by
    have hlength : (gzipFile compressed message).length - 4 =
        (gzipHeader ++ compressed ++ littleEndian (pbcrc32 message).toNat).length := by
      rw [gzipFile, List.length_append, length_littleEndian, Nat.add_sub_cancel]
    rw [hlength, gzipFile, List.drop_left]
  rw [unpackedSize, hdrop, foldr_littleEndian h]

/-- The text for which it stands. -/
lemma gunzip_gzipFile {inflate : Bytes → Option Bytes} (hinflate : inflate compressed = some message)
    (h : message.length < 2 ^ 32) : gunzip inflate (gzipFile compressed message) = some message := by
  rw [gunzip, if_pos hasGzipHeader_gzipFile, deflated_gzipFile, hinflate, unpackedSize_gzipFile h]
  simp

end Format

/-! ## What is packed -/

/-- What `pbgzip_compress` leaves behind. -/
inductive Packed (inflate : Bytes → Option Bytes) (message : Bytes) {n : Nat} :
    CharArray n × Nat × PubnubRes → Prop
  | packed {buf : CharArray n} {size : Nat} (compressed : Bytes) (hinflate : inflate compressed = some message)
      (hfile : buf.bytes.take size = gzipFile compressed message) (hfits : size ≤ n) (hle : size ≤ message.length)
      (hsmaller : 10 * message.length ≤ 100 * (message.length - size)) : Packed inflate message (buf, size, .ok)
  | left {buf : CharArray n} {rslt : PubnubRes} (hrslt : rslt = .started ∨ rslt = .badCompressionFormat) :
      Packed inflate message (buf, 0, rslt)

/-- A message that is packed gets smaller by a tenth. -/
lemma smaller_of_not_tooLittle {unpacked packed : Nat} (h : tooLittle unpacked packed = false)
    (hlt : unpacked < 2 ^ 32) (hpos : 0 < packed) :
    packed ≤ unpacked ∧ 10 * unpacked ≤ 100 * (unpacked - packed) := by
  rw [tooLittle, Bool.or_eq_false_iff, decide_eq_false_iff_not, decide_eq_false_iff_not,
    minimalAcceptableCompressionRatio] at h
  obtain ⟨hle, hratio⟩ := h
  rw [Nat.mod_eq_of_lt (by omega), Nat.div_lt_iff_lt_mul (by omega)] at hratio
  omega

/-- The code stays inside of its buffer, and what it has packed is in the format. -/
lemma exists_packed {d : Tdefl} {inflate : Bytes → Option Bytes} (hd : d.Correct inflate) {n : Nat}
    (hn : gzipHeaderLengthBytes + gzipFooterLengthBytes < n) (buf : CharArray n) (message : Bytes)
    (hmessage : message.length < 2 ^ 32) :
    ∃ r, pbgzipCompress d buf message = some r ∧ Packed inflate message r := by
  have hn' : 18 < n := hn
  have hheader : gzipHeader.length = gzipHeaderLengthBytes := rfl
  obtain ⟨a, ha, habytes⟩ := CharArray.exists_write (a := buf) (s := gzipHeader) (u := []) (t := buf.bytes)
    (List.nil_append _).symm (by rw [buf.length_bytes, hheader]; exact (Nat.le_add_right _ _).trans hn.le)
  have hwithin := hd.within message (n - (gzipHeaderLengthBytes + gzipFooterLengthBytes))
  have hdone := hd.done message (n - (gzipHeaderLengthBytes + gzipFooterLengthBytes))
  rw [List.length_nil] at ha
  rw [List.nil_append] at habytes
  rw [pbgzipCompress, ha, Option.bind_some, deflateTotalToContextBuffer]
  generalize d.compress message (n - (gzipHeaderLengthBytes + gzipFooterLengthBytes)) = r at hwithin hdone ⊢
  obtain ⟨status, taken, compressed⟩ := r
  simp only at hwithin hdone ⊢
  have hroom : compressed.length + 18 ≤ n := by
    have hsum : gzipHeaderLengthBytes + gzipFooterLengthBytes = 18 := rfl
    omega
  obtain ⟨b, hb, hbbytes⟩ := CharArray.exists_write habytes (s := compressed) (by
    rw [List.length_drop, buf.length_bytes, hheader, gzipHeaderLengthBytes]
    omega)
  rw [hheader] at hb
  rw [hb, Option.bind_some]
  split
  · rename_i hwhole
    split
    · exact ⟨_, rfl, .left (.inl rfl)⟩
    · rename_i hratio
      -- the footer
      have hlength := b.length_bytes
      generalize (buf.bytes.drop gzipHeader.length).drop compressed.length = rest at hbbytes
      rw [hbbytes, List.length_append, List.length_append, hheader, gzipHeaderLengthBytes] at hlength
      obtain ⟨c, hc, hcbytes⟩ := CharArray.exists_write hbbytes
        (s := littleEndian (pbcrc32 message).toNat) (by rw [length_littleEndian]; omega)
      obtain ⟨e, he, hebytes⟩ := CharArray.exists_write hcbytes (s := littleEndian message.length) (by
        rw [List.length_drop, length_littleEndian, length_littleEndian]
        omega)
      have hcrc : packedSize compressed.length - 8 = (gzipHeader ++ compressed).length := by
        rw [List.length_append, hheader, packedSize, gzipFooterLengthBytes, Nat.add_sub_cancel]
      have hsize : packedSize compressed.length - 4 =
          (gzipHeader ++ compressed ++ littleEndian (pbcrc32 message).toNat).length := by
        rw [List.length_append, ← hcrc, length_littleEndian, packedSize, gzipFooterLengthBytes]
        omega
      rw [hcrc, hc, Option.bind_some, hsize, he, Option.map_some]
      obtain ⟨hle, hsmaller⟩ := smaller_of_not_tooLittle (by simpa using hratio) hmessage
        (by rw [packedSize, gzipFooterLengthBytes]; omega)
      refine ⟨_, rfl, .packed compressed (hdone hwhole.1 hwhole.2) ?_ ?_ hle hsmaller⟩
      · rw [hebytes, ← @length_gzipFile compressed message]
        exact List.take_left
      · rw [packedSize, gzipHeaderLengthBytes, gzipFooterLengthBytes]
        omega
  · exact ⟨_, rfl, .left (.inr rfl)⟩

/-- **Packing.**  For every message that has less than 4 GiB the code stays inside of its buffer; and if it
    says that it has packed the message, then what is in the buffer is in the format, with the checksum
    and the size, has data in it that stand for the message, and is smaller by a tenth. -/
theorem pbgzip_compress_right {d : Tdefl} {inflate : Bytes → Option Bytes} (hd : d.Correct inflate) {n : Nat}
    (hn : gzipHeaderLengthBytes + gzipFooterLengthBytes < n) (buf : CharArray n) (message : Bytes)
    (hmessage : message.length < 2 ^ 32) :
    ∃ r, pbgzipCompress d buf message = some r ∧ Packed inflate message r :=
  exists_packed hd hn buf message hmessage

/-- A message, and what it is deflated to. -/
def repeatedText : Bytes := [34] ++ List.replicate 62 97 ++ [34]

def repeatedDeflated : Bytes := [83, 74, 164, 8, 40, 1, 0]

/-- The format, as far as that message goes. -/
def inflateRepeated (data : Bytes) : Option Bytes := if data = repeatedDeflated then some repeatedText else none

def repeatedTdefl : Tdefl where
  compress message size :=
    if message = repeatedText ∧ repeatedDeflated.length ≤ size then (.done, message.length, repeatedDeflated)
    else (.badParam, 0, [])

lemma repeatedTdefl_correct : repeatedTdefl.Correct inflateRepeated where
  within message size := by
    simp only [repeatedTdefl]
    split
    · rename_i h
      exact h.2
    · exact Nat.zero_le size
  done message size hdone _ := by
    simp only [repeatedTdefl] at hdone ⊢
    split at hdone
    · rename_i h
      rw [if_pos h, h.1]
      rfl
    · cases hdone

theorem pbgzip_compress_right_repeated :
    ∃ r, pbgzipCompress repeatedTdefl (CharArray.blank 64) repeatedText = some r ∧
      Packed inflateRepeated repeatedText r ∧ r.2 = (25, .ok) := by
  obtain ⟨r, hr, hpacked⟩ := pbgzip_compress_right repeatedTdefl_correct (by decide) (CharArray.blank 64)
    repeatedText (by decide)
  have hok : (pbgzipCompress repeatedTdefl (CharArray.blank 64) repeatedText).map (·.2) = some (25, .ok) := by
    decide +kernel
  rw [hr] at hok
  exact ⟨r, hr, hpacked, Option.some.inj hok⟩

/-! ## And back -/

/-- There is room for a text. -/
def ReplyBuild.HasRoomFor (b : ReplyBuild) (length : Nat) (alloc : Bool) : Prop :=
  if b.dynamicReplyBuffer then alloc = true else length < b.replyMaxlen + 1

/-- Where there is room, the text is not too big. -/
lemma pbgzipDecompress_ne_tooBig {b : ReplyBuild} {t : Tinfl} {m : ReplyBuffers} {alloc : Bool}
    (hroom : b.HasRoomFor (unpackedSize m.received) alloc) :
    (m.pbgzipDecompress b t alloc).2 ≠ .replyTooBig := by
  have hmade : (m.makeRoom b (unpackedSize m.received) alloc).isSome = true := by
    rw [ReplyBuild.HasRoomFor] at hroom
    rw [ReplyBuffers.makeRoom]
    split at hroom
    · rename_i hdynamic
      rw [if_pos hdynamic, hroom]
      split <;> rfl
    · rename_i hstatic
      rw [if_neg hstatic, if_neg (by omega)]
      rfl
  obtain ⟨m', hm'⟩ := Option.isSome_iff_exists.mp hmade
  rw [ReplyBuffers.pbgzipDecompress]
  split
  · rw [ReplyBuffers.inflateTotal, hm']
    simp only
    split
    · simp
    · rw [ReplyBuffers.inflateTotalToContextBuffer]
      simp only
      split <;> simp
  · simp

/-- **There and back.**  What `pbgzip_compress` has packed is unpacked by `pbgzip_decompress`, in every
    context whose buffers are as large as they say and which has room for the message. -/
theorem gzip_round_trip {d : Tdefl} {t : Tinfl} {inflate : Bytes → Option Bytes} (hd : d.Correct inflate)
    (ht : t.Correct inflate) {n : Nat} (hn : gzipHeaderLengthBytes + gzipFooterLengthBytes < n)
    {buf buf' : CharArray n} {message : Bytes} {size : Nat} (hmessage : message.length + 1 < 2 ^ 32)
    (hpacked : pbgzipCompress d buf message = some (buf', size, .ok)) {b : ReplyBuild} {m : ReplyBuffers}
    (hm : m.Sized b) (hreply : m.httpBufLen < capacityOf m.httpReply)
    (hreceived : m.received = buf'.bytes.take size) {alloc : Bool}
    (hroom : b.HasRoomFor message.length alloc) :
    (m.pbgzipDecompress b t alloc).2 = .ok ∧ (m.pbgzipDecompress b t alloc).1.Contains message := by
  obtain ⟨r, hr, hright⟩ := exists_packed hd hn buf message (by omega)
  rw [hpacked] at hr
  cases hr
  obtain ⟨compressed, hinflate, hfile, -, hle, -⟩ | hrslt := hright
  · have hfile' := hreceived.trans hfile
    have hgunzip : gunzip inflate m.received = some message := by
      rw [hfile', gunzip_gzipFile hinflate (by omega)]
    have hsize : unpackedSize m.received = message.length := by
      rw [hfile', unpackedSize_gzipFile (by omega)]
    have hne : message ≠ [] := by
      rintro rfl
      have hlength := congrArg List.length hfile
      rw [length_gzipFile, packedSize, gzipFooterLengthBytes, List.length_take] at hlength
      rw [List.length_nil] at hle
      omega
    have hmax := b.le_sizeMax
    have hfits : b.dynamicReplyBuffer = true →
        (m.decompHttpReply = none → gunzip inflate m.received ≠ some []) ∧
        (hasGzipHeader m.received = true → m.decompBufSize < unpackedSize m.received →
          unpackedSize m.received + 1 < b.sizeMax) := by
      intro _
      rw [hgunzip, hsize]
      exact ⟨fun _ h => hne (Option.some.inj h), fun _ _ => by omega⟩
    rw [← hsize] at hroom
    obtain ⟨-, hunpacked⟩ := @ReplyBuffers.Sized.pbgzipDecompress b t m hm inflate ht hreply alloc hfits
    rw [hgunzip] at hunpacked
    cases hunpacked with
    | text text htext hrslt hcontains =>
        cases htext
        exact ⟨hrslt, hcontains⟩
    | malformed hnone => cases hnone
    | tooBig hrslt => exact absurd hrslt (pbgzipDecompress_ne_tooBig hroom)
  · rcases hrslt with hrslt | hrslt <;> cases hrslt

/-- The inflater for that message. -/
def repeatedTinfl : Tinfl where
  decompress data size :=
    match inflateRepeated data with
    | some text => if text.length ≤ size then (true, text) else (false, [])
    | none => (false, [])

lemma repeatedTinfl_correct : repeatedTinfl.Correct inflateRepeated where
  within data size := by
    simp only [repeatedTinfl]
    split
    · split
      · assumption
      · exact Nat.zero_le size
    · exact Nat.zero_le size
  done data size hdone := by
    simp only [repeatedTinfl] at hdone ⊢
    split at hdone
    · rename_i text htext
      split at hdone
      · rename_i hle
        simp [htext, hle]
      · cases hdone
    · cases hdone
  complete data text size htext hle := by simp [repeatedTinfl, htext, hle]

theorem gzip_round_trip_repeated : ∃ (buf' : CharArray 64) (m : ReplyBuffers),
    pbgzipCompress repeatedTdefl (CharArray.blank 64) repeatedText = some (buf', 25, .ok) ∧
      m.received = buf'.bytes.take 25 ∧
      (m.pbgzipDecompress ⟨true, 0, 2 ^ 64, by decide⟩ repeatedTinfl true).2 = .ok ∧
      (m.pbgzipDecompress ⟨true, 0, 2 ^ 64, by decide⟩ repeatedTinfl true).1.Contains repeatedText := by
  obtain ⟨⟨buf', size, rslt⟩, hr⟩ := Option.isSome_iff_exists.mp
    (show (pbgzipCompress repeatedTdefl (CharArray.blank 64) repeatedText).isSome = true by decide +kernel)
  have hok : (pbgzipCompress repeatedTdefl (CharArray.blank 64) repeatedText).map (·.2) = some (25, .ok) := by
    decide +kernel
  rw [hr] at hok
  cases hok
  let m : ReplyBuffers := ⟨some ⟨buf'.bytes.take 25, 26⟩, 25, none, 0, []⟩
  have hreceived : m.received = buf'.bytes.take 25 := by
    change (buf'.bytes.take 25).take 25 = _
    rw [List.take_take, Nat.min_self]
  have hsized : m.Sized ⟨true, 0, 2 ^ 64, by decide⟩ := by
    refine ⟨by simp [m], ?_, ?_, .inr ⟨rfl, rfl⟩⟩
    · intro h
      cases h
    · intro r hr
      cases hr
      exact Nat.succ_pos 25
  have hroom : m.httpBufLen < capacityOf m.httpReply := Nat.lt_succ_self 25
  exact ⟨buf', m, hr, hreceived, gzip_round_trip repeatedTdefl_correct repeatedTinfl_correct (by decide)
    (by decide) hr hsized hroom hreceived rfl⟩

end PubNub
