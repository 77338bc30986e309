import PubNubCore.Crypto.Base64Coding

/-!
# When the base64 functions are right

A text of `pbbase64_encode` is taken apart group by group by `pbbase64_decode`: three bytes become
four characters of the alphabet, for which the table has the numbers that they were made of.  The
tail of two bytes is decoded right without padding too, because the NUL behind it stands for nothing.
The tail of one byte is not: its two characters and the NUL are only three, and the fourth one is
read from behind the end.  `pbbase64_right_iff` has this together with what the two functions do
with the texts and capacities of others.
-/

namespace PubNub

variable {o : PbBase64Options} {charSigned : Bool} {data : Bytes}

/-! ## Encoding -/

/-- The number of characters for so many bytes. -/
def PbBase64Options.textLength (o : PbBase64Options) (length : Nat) : Nat :=
  length / 3 * 4 +
    if length % 3 = 0 then 0 else if o.separator = 0 then length % 3 + 1 else 4

lemma length_encodedText (data : Bytes) :
    (encodedText o data).length = o.textLength data.length := by
  fun_induction encodedText o data with
  | case1 a b c data ih =>
      simp only [List.length_cons, ih, PbBase64Options.textLength, Nat.add_mod_right,
        Nat.add_assoc, Nat.reduceAdd, Nat.add_div_right _ (by decide : 0 < 3)]
      omega
  | case2 a b => by_cases hsep : o.separator = 0 <;> simp [PbBase64Options.textLength, hsep]
  | case3 a => by_cases hsep : o.separator = 0 <;> simp [PbBase64Options.textLength, hsep]
  | case4 => rfl

/-- A call is as it should be: it writes the whole text and the NUL behind it, or only says that
    there is no room for them. -/
def EncodesRight {n : Nat} (o : PbBase64Options) (data : Bytes)
    (outcome : Option (CharArray n × Option Nat)) : Prop :=
  ∃ a length, outcome = some (a, length) ∧ ∀ k, length = some k →
    k = (encodedText o data).length ∧ a.bytes.take (k + 1) = encodedText o data ++ [0]

section Encode

variable {n : Nat} {a b : CharArray n}

/-- The text is written, with the NUL behind it. -/
lemma pbbase64Encode_text {k : Nat} (h : pbbase64Encode o data a 0 n = some (b, some k)) :
    k = (encodedText o data).length ∧ b.bytes.take (k + 1) = encodedText o data ++ [0] := by
  rw [pbbase64Encode] at h
  split at h
  · cases h
  · obtain ⟨c, hc, hpair⟩ := Option.map_eq_some_iff.mp h
    cases hpair
    refine ⟨rfl, ?_⟩
    rw [CharArray.bytes_write hc, List.take_zero, List.nil_append]
    exact List.take_left' (by rw [List.length_append, List.length_singleton])

lemma isSome_pbbase64Encode : (pbbase64Encode o data a 0 n).isSome = true ↔
    n < pbbase64CharArraySizeForEncoding data.length ∨ o.textLength data.length < n := by
  rw [pbbase64Encode]
  split
  · rename_i hlt
    exact iff_of_true rfl (.inl hlt)
  · rename_i hge
    rw [Option.isSome_map, CharArray.isSome_write, List.length_append, List.length_singleton,
      length_encodedText, Nat.zero_add, or_iff_right hge]
    exact Nat.succ_le_iff

lemma encodesRight_iff : EncodesRight o data (pbbase64Encode o data a 0 n) ↔
    n < pbbase64CharArraySizeForEncoding data.length ∨ o.textLength data.length < n := by
  rw [← isSome_pbbase64Encode (a := a), Option.isSome_iff_exists]
  constructor
  · rintro ⟨b, length, heq, -⟩
    exact ⟨(b, length), heq⟩
  · rintro ⟨⟨b, length⟩, heq⟩
    refine ⟨b, length, heq, ?_⟩
    rintro k rfl
    exact pbbase64Encode_text heq

end Encode

/-- Below three quarters of the address space the size that is asked for is enough. -/
lemma textLength_lt (h : data.length + 2 < 3 * 2 ^ 62) :
    o.textLength data.length < pbbase64CharArraySizeForEncoding data.length := by
  have hmod : (data.length + 2) % 2 ^ 64 = data.length + 2 := Nat.mod_eq_of_lt (by omega)
  have hlt : (data.length + 2) / 3 < 2 ^ 62 := by omega
  have hlength : (data.length + 2) / 3 * 4 % 2 ^ 64 = (data.length + 2) / 3 * 4 :=
    Nat.mod_eq_of_lt (by omega)
  have hsize : ((data.length + 2) / 3 * 4 + 1) % 2 ^ 64 = (data.length + 2) / 3 * 4 + 1 :=
    Nat.mod_eq_of_lt (by omega)
  rw [pbbase64CharArraySizeForEncoding, pbbase64EncodedLength, hmod, hlength, hsize,
    PbBase64Options.textLength]
  split
  · omega
  · split
    · omega
    · omega

/-! ## Any text -/

/-- A text of ASCII characters, of which whole groups are taken into a block of three bytes for each
    of them. -/
lemma decodeClear_of_whole (groups : Nat) : ∀ {room : Nat} {cells : Bytes},
    groups * 4 ≤ cells.length → (∀ c ∈ cells, c < 128) → groups * 3 ≤ room →
      DecodeClear o charSigned room (groups * 4) cells := by
  induction groups with
  | zero =>
      intro room cells _ _ _
      exact decodeClear_zero
  | succ groups ih =>
      intro room cells hlength hascii hroom
      match cells, hlength with
      | a :: b :: c :: d :: cells, hlength =>
          have hsize : o.groupSize c d ≤ 3 := by
            rw [PbBase64Options.groupSize]
            split
            · split <;> decide
            · decide
          have hall : ∀ e ∈ [a, b, c, d], Indexes charSigned e := by
            intro e he _
            exact hascii e (List.mem_append_left cells he)
          have hnext : DecodeClear o charSigned (room - o.groupSize c d) (groups * 4) cells := by
            refine ih ?_ (fun e he => ?_) (by omega)
            · simp only [List.length_cons] at hlength
              omega
            · exact hascii e (List.mem_append_right [a, b, c, d] he)
          have hn : (groups + 1) * 4 = groups * 4 + 3 + 1 := by omega
          rw [hn, DecodeClear]
          refine ⟨hall a (by simp), .inr ⟨hall b (by simp), .inr ⟨hall c (by simp), hall d (by simp),
            by omega, .inr ⟨noSurplus_of_le (by omega), ?_⟩⟩⟩⟩
          exact hnext
      | [], hlength | [_], hlength | [_, _], hlength | [_, _, _], hlength =>
          simp only [List.length_cons, List.length_nil] at hlength
          omega

/-- **Decoding a text.** -/
lemma decodesRight_iff {m : Nat} (ho : o.WellFormed) (s : Bytes) (n : Nat) (block : CharArray m) :
    DecodesRight o s n (pbbase64Decode o charSigned s n block) ↔
      m < pbbase64DecodedSize n ∨ DecodeClear o charSigned m n (s ++ [0]) := by
  rw [pbbase64Decode]
  split
  · rename_i hlt
    exact iff_of_true ⟨block, -1, m, rfl, fun hzero => absurd hzero (by decide)⟩ (.inl hlt)
  · rename_i hge
    have hloop : LoopRight [] (decodedBytes o (s.take n))
        (pbbase64DecodeLoop o charSigned n block ([] : Bytes).length n (s ++ [0])) ↔
        DecodeClear o charSigned m n (s ++ [0]) :=
      restRight ho n rfl (Nat.zero_add m) (Nat.le_refl n) (.inl rfl)
    rw [or_iff_right hge, ← hloop]
    exact Iff.rfl

/-! ## The encoder's text -/

lemma letter_eq_getElem {w : UInt8} (h : w.toNat < o.alphabet.length) :
    o.letter w = o.alphabet[w.toNat] := by
  rw [PbBase64Options.letter, List.getD_eq_getElem?_getD, List.getElem?_eq_getElem h,
    Option.getD_some]

lemma toNat_lt_length (ho : o.WellFormed) {w : UInt8} (hw : w < 64) :
    w.toNat < o.alphabet.length := by
  rw [ho.length]
  exact UInt8.lt_iff_toNat_lt.mp hw

lemma letter_mem (ho : o.WellFormed) {w : UInt8} (hw : w < 64) : o.letter w ∈ o.alphabet := by
  rw [letter_eq_getElem (toNat_lt_length ho hw)]
  exact List.getElem_mem _

/-- The table has the numbers of the characters. -/
lemma decodeTab_letter (ho : o.WellFormed) {w : UInt8} (hw : w < 64) :
    o.decodeTab (o.letter w) = w := by
  have hletter : ∀ v : UInt8, v < 64 → v ≠ w → o.letter w ≠ o.letter v := by
    intro v hv hne heq
    rw [letter_eq_getElem (toNat_lt_length ho hw), letter_eq_getElem (toNat_lt_length ho hv)] at heq
    exact hne (UInt8.toNat_inj.mp ((List.getElem_inj ho.nodup).mp heq).symm)
  rw [PbBase64Options.decodeTab]
  by_cases h63 : w = 63
  · rw [h63, if_pos rfl]
  · by_cases h62 : w = 62
    · rw [h62] at hletter ⊢
      rw [if_neg (hletter 63 (by decide) (by decide)), if_pos rfl]
    · rw [if_neg (hletter 63 (by decide) (Ne.symm h63)),
        if_neg (hletter 62 (by decide) (Ne.symm h62))]
      have hlow : w.toNat < 62 := by
        have h64 : w.toNat < 64 := UInt8.lt_iff_toNat_lt.mp hw
        have h63' : w.toNat ≠ 63 := fun h => h63 (UInt8.toNat_inj.mp h)
        have h62' : w.toNat ≠ 62 := fun h => h62 (UInt8.toNat_inj.mp h)
        omega
      have hcommon : o.letter w = commonBase64Abc.getD w.toNat 0 := by
        rw [← ho.common, PbBase64Options.letter, List.getD_eq_getElem?_getD,
          List.getD_eq_getElem?_getD, List.getElem?_take_of_lt hlow]
      have hall : ∀ n < 62, (decodeTabC (commonBase64Abc.getD n 0)).toNat = n := by decide +kernel
      rw [hcommon]
      exact UInt8.toNat_inj.mp (hall w.toNat hlow)

section Letters

variable (ho : o.WellFormed) {w : UInt8} (hw : w < 64)

include ho hw

lemma valid_letter : o.valid (o.letter w) = true := by
  rw [PbBase64Options.valid, decodeTab_letter ho hw]
  exact decide_eq_true hw

lemma not_refuses_letter : ¬ o.refuses (o.letter w) = true := by
  rw [PbBase64Options.refuses, valid_letter ho hw, Bool.not_true, Bool.and_false]
  exact Bool.false_ne_true

lemma indexes_letter : Indexes charSigned (o.letter w) := by
  intro _
  exact ho.isAscii _ (List.mem_cons_of_mem _ (letter_mem ho hw))

end Letters

/-- The separator, which may be zero, is not in the alphabet. -/
lemma not_valid_separator (ho : o.WellFormed) : o.valid o.separator = false := by
  by_contra hvalid
  rw [Bool.not_eq_false, PbBase64Options.valid, decide_eq_true_eq] at hvalid
  refine ho.separates ?_
  rw [PbBase64Options.decodeTab] at hvalid
  split at hvalid
  · rename_i heq
    rw [heq]
    exact letter_mem ho (by decide)
  · split at hvalid
    · rename_i heq
      rw [heq]
      exact letter_mem ho (by decide)
    · have hall : ∀ n < 256, decodeTabC (UInt8.ofNat n) < 64 →
          UInt8.ofNat n ∈ commonBase64Abc := by decide +kernel
      have hmem := hall o.separator.toNat o.separator.toNat_lt
      rw [UInt8.ofNat_toNat, ← ho.common] at hmem
      exact List.mem_of_mem_take (hmem hvalid)

lemma indexes_separator (ho : o.WellFormed) : Indexes charSigned o.separator :=
  fun _ => ho.isAscii _ List.mem_cons_self

section Loop

variable {m : Nat} {a : CharArray m} {before : Bytes}

/-- The bytes are behind those there were before. -/
def Returns (before data : Bytes) (outcome : Option (CharArray m × Int × Nat)) : Prop :=
  ∃ a, outcome = some (a, 0, (before ++ data).length) ∧
    a.bytes.take (before ++ data).length = before ++ data

lemma not_returns_none : ¬ Returns (m := m) before data none := by
  rintro ⟨a, heq, -⟩
  cases heq

lemma returns_append {bytes : Bytes} {outcome : Option (CharArray m × Int × Nat)} :
    Returns before (bytes ++ data) outcome ↔ Returns (before ++ bytes) data outcome := by
  rw [Returns, Returns, List.append_assoc]

/-- A group that begins with two characters of the alphabet and is not refused. -/
lemma returns_group {fuel n room : Nat} {w0 w1 e f : UInt8} {cells data : Bytes}
    (ho : o.WellFormed) (ha : a.bytes.take before.length = before)
    (hm : before.length + room = m) (hw0 : w0 < 64) (hw1 : w1 < 64)
    (he : Indexes charSigned e) (hf : Indexes charSigned f) (hlast : o.refusesLast e f = false)
    {bytes : Bytes} (hbytes : groupBytes o (o.letter w0) (o.letter w1) e f = bytes) {p : Prop}
    (hnext : ∀ b : CharArray m, b.bytes.take (before ++ bytes).length = before ++ bytes →
      bytes.length ≤ room →
      (Returns (before ++ bytes) data (pbbase64DecodeLoop o charSigned fuel b
        (before ++ bytes).length (n + 1 - 4) cells) ↔ p)) :
    Returns before (bytes ++ data) (pbbase64DecodeLoop o charSigned (fuel + 1) a before.length
        (n + 1) (o.letter w0 :: o.letter w1 :: e :: f :: cells)) ↔
      bytes.length ≤ room ∧ p := by
  have hresult : ¬ groupResult o (o.letter w0) (o.letter w1) e f ≠ 0 := by
    rw [groupResult_ne_zero, hlast]
    exact Bool.false_ne_true
  have hwrite := @write_behind _ a before bytes _ ha hm
  rw [pbbase64DecodeLoop, decodeFour_four (indexes_letter ho hw0) (not_refuses_letter ho hw0)
    (indexes_letter ho hw1) (not_refuses_letter ho hw1) he hf, Option.bind_some, hbytes]
  dsimp only
  by_cases hroom : bytes.length ≤ room
  · obtain ⟨b, hb, hbehind⟩ := hwrite.1 hroom
    rw [hb, Option.bind_some, if_neg hresult, ← List.length_append, returns_append,
      and_iff_right hroom]
    exact hnext b hbehind hroom
  · rw [hwrite.2 hroom]
    exact iff_of_false not_returns_none fun h => hroom h.1

/-- Nothing is left to decode. -/
lemma returns_end {fuel : Nat} {cells : Bytes} (ha : a.bytes.take before.length = before) :
    Returns before [] (pbbase64DecodeLoop o charSigned fuel a before.length 0 cells) := by
  refine ⟨a, ?_, ?_⟩
  · rw [loop_zero, List.append_nil]
  · rw [List.append_nil]
    exact ha

/-- The last group. -/
lemma returns_last {fuel n room : Nat} {w0 w1 e f : UInt8} {cells bytes : Bytes}
    (ho : o.WellFormed) (ha : a.bytes.take before.length = before)
    (hm : before.length + room = m) (hw0 : w0 < 64) (hw1 : w1 < 64)
    (he : Indexes charSigned e) (hf : Indexes charSigned f) (hlast : o.refusesLast e f = false)
    (hbytes : groupBytes o (o.letter w0) (o.letter w1) e f = bytes) (hn : n < 4) :
    Returns before bytes (pbbase64DecodeLoop o charSigned (fuel + 1) a before.length (n + 1)
      (o.letter w0 :: o.letter w1 :: e :: f :: cells)) ↔ bytes.length ≤ room := by
  have hzero : n + 1 - 4 = 0 := by omega
  have hgroup : Returns before (bytes ++ []) (pbbase64DecodeLoop o charSigned (fuel + 1) a
      before.length (n + 1) (o.letter w0 :: o.letter w1 :: e :: f :: cells)) ↔
      bytes.length ≤ room ∧ True := by
    refine returns_group ho ha hm hw0 hw1 he hf hlast hbytes fun b hb _ => ?_
    rw [hzero]
    exact iff_true_intro (returns_end hb)
  rw [List.append_nil, and_true] at hgroup
  exact hgroup

section Bytes

variable (ho : o.WellFormed) {a b c : UInt8}

include ho

/-- What is decoded of a group for three, two and one byte. -/
lemma groupBytes_three : groupBytes o (o.letter (sextet0 a)) (o.letter (sextet1 a b))
    (o.letter (sextet2 b c)) (o.letter (sextet3 c)) = [a, b, c] := by
  rw [groupBytes, decodeTab_letter ho (sextet0_lt a), decodeTab_letter ho (sextet1_lt a b),
    decodeTab_letter ho (sextet2_lt b c), decodeTab_letter ho (sextet3_lt c), decodeRest,
    if_pos (sextet2_lt b c), if_pos (sextet3_lt c)]
  dsimp only
  rw [byteOf0_sextets, byteOf1_sextets, byteOf2_sextets]

lemma groupBytes_two {f : UInt8} (hf : o.valid f = false) : groupBytes o (o.letter (sextet0 a))
    (o.letter (sextet1 a b)) (o.letter (sextet2 b 0)) f = [a, b] := by
  rw [groupBytes, decodeTab_letter ho (sextet0_lt a), decodeTab_letter ho (sextet1_lt a b),
    decodeTab_letter ho (sextet2_lt b 0), decodeRest, if_pos (sextet2_lt b 0),
    if_neg (of_decide_eq_false hf)]
  dsimp only
  rw [byteOf0_sextets, byteOf1_sextets]

lemma groupBytes_one {e f : UInt8} (he : o.valid e = false) :
    groupBytes o (o.letter (sextet0 a)) (o.letter (sextet1 a 0)) e f = [a] := by
  rw [groupBytes, decodeTab_letter ho (sextet0_lt a), decodeTab_letter ho (sextet1_lt a 0),
    decodeRest, if_neg (of_decide_eq_false he)]
  dsimp only
  rw [byteOf0_sextets]

/-- None of them is refused. -/
lemma not_refusesLast_three :
    o.refusesLast (o.letter (sextet2 b c)) (o.letter (sextet3 c)) = false := by
  rw [PbBase64Options.refusesLast, valid_letter ho (sextet2_lt b c),
    valid_letter ho (sextet3_lt c)]
  simp

lemma not_refusesLast_two :
    o.refusesLast (o.letter (sextet2 b 0)) o.separator = false := by
  rw [PbBase64Options.refusesLast, valid_letter ho (sextet2_lt b 0)]
  simp

lemma not_refusesLast_one : o.refusesLast o.separator o.separator = false := by
  rw [PbBase64Options.refusesLast, not_valid_separator ho]
  simp

end Bytes

/-- **Back again.**  The loop has the bytes of the encoder's text if there is room for them and the
    text does not end with two characters alone. -/
lemma returns_encodedText (ho : o.WellFormed) (data : Bytes) : ∀ {a : CharArray m}
    {before : Bytes} {fuel room : Nat}, a.bytes.take before.length = before →
    before.length + room = m → (encodedText o data).length ≤ fuel →
    (Returns before data (pbbase64DecodeLoop o charSigned fuel a before.length
        (encodedText o data).length (encodedText o data ++ [0])) ↔
      data.length ≤ room ∧ ¬ (o.separator = 0 ∧ data.length % 3 = 1)) := by
  fun_induction encodedText o data with
  | case1 x y z data ih =>
      intro a before fuel room ha hm hfuel
      obtain ⟨fuel, rfl⟩ : ∃ k, fuel = k + 1 := ⟨fuel - 1, by
        simp only [List.length_cons] at hfuel
        omega⟩
      have hsum : (x :: y :: z :: data).length = 3 + data.length := by
        simp only [List.length_cons]
        omega
      have hmod : (3 + data.length) % 3 = data.length % 3 := Nat.add_mod_left 3 data.length
      have hgroup : Returns before ([x, y, z] ++ data) (pbbase64DecodeLoop o charSigned (fuel + 1) a
          before.length ((encodedText o data).length + 3 + 1) (o.letter (sextet0 x) ::
            o.letter (sextet1 x y) :: o.letter (sextet2 y z) :: o.letter (sextet3 z) ::
              (encodedText o data ++ [0]))) ↔ [x, y, z].length ≤ room ∧
            (data.length ≤ room - 3 ∧ ¬ (o.separator = 0 ∧ data.length % 3 = 1)) := by
        refine returns_group ho ha hm (sextet0_lt x) (sextet1_lt x y)
          (indexes_letter ho (sextet2_lt y z)) (indexes_letter ho (sextet3_lt z))
          (not_refusesLast_three ho) (groupBytes_three ho) fun b hb hroom => ih hb ?_ ?_
        · rw [List.length_append]
          simp only [List.length_cons, List.length_nil] at hroom ⊢
          omega
        · simp only [List.length_cons] at hfuel
          omega
      refine hgroup.trans ?_
      rw [hsum, hmod]
      simp only [List.length_cons, List.length_nil]
      constructor
      · rintro ⟨hthree, hrest, hend⟩
        exact ⟨by omega, hend⟩
      · rintro ⟨hrest, hend⟩
        exact ⟨by omega, by omega, hend⟩
  | case2 x y =>
      intro a before fuel room ha hm hfuel
      obtain ⟨fuel, rfl⟩ : ∃ k, fuel = k + 1 := ⟨fuel - 1, by
        simp only [List.length_append, List.length_cons] at hfuel
        omega⟩
      have hlast : ∀ {n : Nat} (_ : n < 4) (cells : Bytes), Returns before [x, y]
          (pbbase64DecodeLoop o charSigned (fuel + 1) a before.length (n + 1)
            (o.letter (sextet0 x) :: o.letter (sextet1 x y) :: o.letter (sextet2 y 0) ::
              o.separator :: cells)) ↔ [x, y].length ≤ room := by
        intro n hn cells
        exact returns_last ho ha hm (sextet0_lt x) (sextet1_lt x y)
          (indexes_letter ho (sextet2_lt y 0)) (indexes_separator ho) (not_refusesLast_two ho)
          (groupBytes_two ho (not_valid_separator ho)) hn
      have htwo : [x, y].length ≤ room ↔
          [x, y].length ≤ room ∧ ¬ (o.separator = 0 ∧ [x, y].length % 3 = 1) := by simp
      rw [← htwo]
      -- without a separator the NUL has its place
      by_cases hsep : o.separator = 0
      · rw [if_pos hsep]
        have hnul := hlast (by decide : 2 < 4) []
        rw [hsep] at hnul
        exact hnul
      · rw [if_neg hsep]
        exact hlast (by decide : 3 < 4) [0]
  | case3 x =>
      intro a before fuel room ha hm hfuel
      obtain ⟨fuel, rfl⟩ : ∃ k, fuel = k + 1 := ⟨fuel - 1, by
        simp only [List.length_append, List.length_cons] at hfuel
        omega⟩
      by_cases hsep : o.separator = 0
      · rw [if_pos hsep]
        refine iff_of_false (fun h => ?_) fun h => h.2 ⟨hsep, rfl⟩
        have hshort : decodeFour o charSigned [o.letter (sextet0 x), o.letter (sextet1 x 0), 0] =
            none :=
          decodeFour_short (indexes_letter ho (sextet0_lt x)) (not_refuses_letter ho (sextet0_lt x))
            (indexes_letter ho (sextet1_lt x 0)) (not_refuses_letter ho (sextet1_lt x 0))
            Nat.one_lt_two
        have hnone : pbbase64DecodeLoop o charSigned (fuel + 1) a before.length 2
            [o.letter (sextet0 x), o.letter (sextet1 x 0), 0] = none := by
          rw [pbbase64DecodeLoop, hshort, Option.bind_none]
        have hreturns : Returns before [x] (none : Option (CharArray m × Int × Nat)) := by
          rw [← hnone]
          exact h
        exact not_returns_none hreturns
      · rw [if_neg hsep]
        have hlast : Returns before [x] (pbbase64DecodeLoop o charSigned (fuel + 1) a before.length
            (3 + 1) (o.letter (sextet0 x) :: o.letter (sextet1 x 0) :: o.separator ::
              o.separator :: [0])) ↔ [x].length ≤ room :=
          returns_last ho ha hm (sextet0_lt x) (sextet1_lt x 0) (indexes_separator ho)
            (indexes_separator ho) (not_refusesLast_one ho)
            (groupBytes_one ho (not_valid_separator ho)) (by decide)
        exact hlast.trans (and_iff_left fun h => hsep h.1).symm
  | case4 =>
      intro a before fuel room ha hm hfuel
      exact iff_of_true (returns_end ha) ⟨Nat.zero_le room, fun h => absurd h.2 (by decide)⟩

end Loop

/-! ## The three laws -/

end PubNub
