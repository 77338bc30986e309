import PubNubCore.Json.Scanning
import PubNubCore.Lib.JsonObjects
import PubNubCore.Replies.Pieces

/-!
# Texts that are split in their place

A list of texts arrives with a byte between them, `joined`.  To hand them out one after the other the
bytes between them are overwritten with NULs: `pbcc_split_array` does so with the messages of a
reply, where a comma counts only outside of brackets and strings, and `pbcc_parse_subscribe_response`
with a list of channels, where each comma counts but one at the front.  `pbcc_get_msg` and
`pbcc_get_channel` then go from one text to the next.
-/

namespace PubNub

open JsonText

/-! ## Texts in a row -/

/-- Texts with a byte between them. -/
def joined (c : UInt8) : List Bytes → Bytes
  | [] => []
  | [t] => t
  | t :: ts => t ++ c :: joined c ts

lemma joined_cons {c : UInt8} {t : Bytes} {ts : List Bytes} (h : ts ≠ []) :
    joined c (t :: ts) = t ++ c :: joined c ts := by
  cases ts with
  | nil => exact absurd rfl h
  | cons u ts => rfl

lemma length_joined_cons {c : UInt8} {t : Bytes} {texts : List Bytes} (h : texts ≠ []) :
    (joined c (t :: texts)).length = t.length + 1 + (joined c texts).length := by
  rw [joined_cons h, List.length_append, List.length_cons]
  omega

lemma mem_joined {c x : UInt8} {texts : List Bytes} (h : x ∈ joined c texts) :
    x = c ∨ ∃ t ∈ texts, x ∈ t := by
  induction texts with
  | nil => cases h
  | cons t texts ih =>
      by_cases hlast : texts = []
      · subst hlast
        exact .inr ⟨t, List.mem_cons_self, h⟩
      · rw [joined_cons hlast, List.mem_append, List.mem_cons] at h
        obtain h | h | h := h
        · exact .inr ⟨t, List.mem_cons_self, h⟩
        · exact .inl h
        · obtain hc | ⟨u, hu, hx⟩ := ih h
          · exact .inl hc
          · exact .inr ⟨u, List.mem_cons_of_mem t hu, hx⟩

lemma length_joined (c c' : UInt8) (texts : List Bytes) :
    (joined c texts).length = (joined c' texts).length := by
  induction texts with
  | nil => rfl
  | cons t texts ih =>
      by_cases hlast : texts = []
      · rw [hlast, joined, joined]
      · rw [length_joined_cons hlast, length_joined_cons hlast, ih]

/-- The results of some calls in a row of `pbcc_get_msg`, or of `pbcc_get_channel`. -/
def pbccGets (m : Memory) : Nat → OffsetWindow → List (Option Bytes)
  | 0, _ => []
  | k + 1, w => (pbccGet m w).1 :: pbccGets m k (pbccGet m w).2

/-- Some calls in a row return these texts, and then NULL. -/
def HandsOut (m : Memory) (w : OffsetWindow) (texts : List Bytes) : Prop :=
  ∀ k, pbccGets m k w = (texts.map some ++ List.replicate k none).take k

/-! ## Writing into a memory -/

namespace Memory

variable {m m' : Memory} {p i j k : Int} {t u : Bytes} {b : UInt8}

lemma byte_set_of_ne (hi : 0 ≤ i) (h : j ≠ i) : (m.set i b).byte j = m.byte j := by
  obtain ⟨i, rfl⟩ := Int.eq_ofNat_of_zero_le hi
  cases j with
  | ofNat j =>
      have hne : i ≠ j := fun heq => h (congrArg Int.ofNat heq.symm)
      simp only [byte, set, Int.toNat_natCast, List.getD_eq_getElem?_getD]
      rw [List.getElem?_set_ne hne]
  | negSucc j => rfl

lemma byte_set_zero (hi : 0 ≤ i) : (m.set i 0).byte i = 0 := by
  obtain ⟨i, rfl⟩ := Int.eq_ofNat_of_zero_le hi
  change (m.cells.set i 0).getD i 0 = 0
  rw [List.getD_eq_getElem?_getD, List.getElem?_set_self']
  cases m.cells[i]? with
  | none => rfl
  | some c => rfl

/-- A text lies where the bytes are the same. -/
lemma Reads.congr (h : m.Reads p t)
    (hbytes : ∀ j, p ≤ j → j < p + t.length → m'.byte j = m.byte j) : m'.Reads p t := by
  induction t generalizing p with
  | nil => trivial
  | cons c t ih =>
      rw [List.length_cons] at hbytes
      obtain ⟨hc, hrest⟩ := h
      refine ⟨(hbytes p (by omega) (by omega)).trans hc, ih hrest fun j hlow hhigh => ?_⟩
      exact hbytes j (by omega) (by omega)

/-- Every byte of a text that lies somewhere is one of the text. -/
lemma Reads.byte_mem (h : m.Reads p t) (hlow : p ≤ j) (hhigh : j < p + t.length) :
    m.byte j ∈ t := by
  induction t generalizing p with
  | nil =>
      rw [List.length_nil] at hhigh
      omega
  | cons c t ih =>
      rw [List.length_cons] at hhigh
      obtain ⟨hc, hrest⟩ := h
      by_cases hj : j = p
      · rw [hj, hc]
        exact List.mem_cons_self
      · exact List.mem_cons_of_mem c (ih hrest (by omega) (by omega))

/-- A write somewhere else. -/
lemma Reads.set (h : m.Reads p t) (hi : 0 ≤ i) (haside : i < p ∨ p + t.length ≤ i) :
    (m.set i b).Reads p t :=
  h.congr fun _ hlow hhigh => byte_set_of_ne hi (by omega)

lemma byte_splitChannels (hj : 0 ≤ j) : (m.splitChannels i k).byte j =
    if i + 1 < j ∧ j ≤ k ∧ m.byte j = 44 then 0 else m.byte j := by
  obtain ⟨j, rfl⟩ := Int.eq_ofNat_of_zero_le hj
  change (m.cells.mapIdx _).getD j 0 = _
  simp only [byte, List.getD_eq_getElem?_getD, List.getElem?_mapIdx]
  cases m.cells[j]? with
  | none => simp
  | some c => rfl

/-- A list of channels somewhere else. -/
lemma Reads.splitChannels (h : m.Reads p t) (hp : 0 ≤ p) (haside : p + t.length ≤ i + 2 ∨ k < p) :
    (m.splitChannels i k).Reads p t :=
  h.congr fun j hlow hhigh => by
    rw [byte_splitChannels (by omega), if_neg]
    rintro ⟨hleft, hright, -⟩
    omega

end Memory

/-- What becomes of a byte of a list of channels. -/
def endComma (c : UInt8) : UInt8 := if c = 44 then 0 else c

/-- What becomes of a list of channels: its commas are ended, but not one at its front. -/
def splitBehindFirst : Bytes → Bytes
  | [] => []
  | c :: t => c :: t.map endComma

lemma Memory.reads_endComma {m : Memory} {i k p : Int} {t : Bytes} (h : m.Reads p t)
    (hi : 0 ≤ i) (hp : i + 1 < p) (hk : p + t.length ≤ k + 1) :
    (m.splitChannels i k).Reads p (t.map endComma) := by
  induction t generalizing p with
  | nil => trivial
  | cons c t ih =>
      obtain ⟨hc, hrest⟩ := h
      rw [List.length_cons] at hk
      refine ⟨?_, ih hrest (by omega) (by omega)⟩
      rw [byte_splitChannels (by omega), hc, endComma]
      by_cases hcomma : c = 44
      · rw [if_pos ⟨hp, by omega, hcomma⟩, if_pos hcomma]
      · rw [if_neg fun hsplit => hcomma hsplit.2.2, if_neg hcomma]

lemma Memory.reads_splitChannels {m : Memory} {i k : Int} {t : Bytes} (h : m.Reads (i + 1) t)
    (hi : 0 ≤ i) (hk : i + t.length ≤ k) :
    (m.splitChannels i k).Reads (i + 1) (splitBehindFirst t) := by
  cases t with
  | nil => trivial
  | cons c t =>
      obtain ⟨hc, hrest⟩ := h
      rw [List.length_cons] at hk
      refine ⟨?_, Memory.reads_endComma hrest hi (by omega) (by omega)⟩
      rw [byte_splitChannels (by omega), if_neg (by omega)]
      exact hc

/-! ## Splitting the messages -/

section Splitting

variable {objects arrays : Nat} {t u rest : Bytes} {level : Int} {part : Part}

/-- The loop of `pbcc_split_array` passes over a text. -/
def Passed (inString : Bool) (level : Int) (t : Bytes) : Prop :=
  ∀ rest, splitFrom false inString level (t ++ rest) =
    (t ++ (splitFrom false inString level rest).1, (splitFrom false inString level rest).2)

lemma passed_nil {inString : Bool} : Passed inString level [] := fun _ => rfl

lemma Passed.append {inString : Bool} (ht : Passed inString level t)
    (hu : Passed inString level u) : Passed inString level (t ++ u) := by
  intro rest
  rw [List.append_assoc, ht, hu, List.append_assoc]

/-- A byte that means nothing outside of strings. -/
lemma passed_neutral {c : UInt8}
    (hc : c ≠ 0 ∧ c ≠ 34 ∧ c ≠ 91 ∧ c ≠ 93 ∧ c ≠ 123 ∧ c ≠ 125 ∧ (c ≠ 44 ∨ level ≠ 0)) :
    Passed false level [c] := by
  intro rest
  obtain ⟨hnul, hquote, hopen, hclose, hopenBrace, hcloseBrace, hcomma⟩ := hc
  have hsplit : ¬(c = 44 ∧ level = 0) := fun h => hcomma.elim (· h.1) (· h.2)
  rw [List.singleton_append, splitFrom, if_neg hnul]
  simp [hquote, hopen, hclose, hopenBrace, hcloseBrace, hsplit]

lemma passed_of_forall {t : Bytes} (h : ∀ c ∈ t, Passed false level [c]) :
    Passed false level t := by
  induction t with
  | nil => exact passed_nil
  | cons c t ih =>
      rw [List.forall_mem_cons] at h
      exact h.1.append (ih h.2)

lemma passed_ws (h : IsWs t) : Passed false level t := by
  refine passed_of_forall fun c hc => passed_neutral ?_
  obtain rfl | rfl | rfl | rfl := h c hc
  all_goals simp

lemma passed_scalar (h : IsScalar t) : Passed false level t := by
  refine passed_of_forall fun c hc => passed_neutral ?_
  have hbyte := h.isScalarByte c hc
  simp only [IsScalarByte, UInt8.le_iff_toNat_le, ← UInt8.toNat_inj, ne_eq, UInt8.reduceToNat]
    at hbyte ⊢
  omega

/-- A byte that means nothing in a string. -/
lemma passed_inString {c : UInt8} (hc : c ≠ 0 ∧ c ≠ 34 ∧ c ≠ 92) : Passed true level [c] := by
  intro rest
  have hbackslash : (c == 92) = false := beq_false_of_ne hc.2.2
  rw [List.singleton_append, splitFrom, if_neg hc.1]
  simp [hc.2.1, hbackslash]

/-- A backslash, and the byte behind it. -/
lemma passed_escape {c : UInt8} (hc : c ≠ 0) : Passed true level [92, c] := by
  intro rest
  have hescaped : splitFrom true true level (c :: rest) =
      (c :: (splitFrom false true level rest).1, (splitFrom false true level rest).2) := by
    rw [splitFrom, if_neg hc]
    simp
  rw [List.cons_append, splitFrom, if_neg (by decide), List.singleton_append]
  simp [hescaped]

lemma passed_stringBody (h : IsStringBody t) : Passed true level t := by
  induction h with
  | nil => exact passed_nil
  | plain control quote backslash rest ih =>
      refine Passed.append (passed_inString ⟨?_, quote, backslash⟩) ih
      rintro rfl
      exact absurd control (by decide)
  | escape known rest ih =>
      refine Passed.append (passed_escape ?_) ih
      rintro rfl
      simp at known
  | @unicode h₁ h₂ h₃ h₄ t hex rest ih =>
      have hhex : ∀ c ∈ [h₁, h₂, h₃, h₄], Passed true level [c] := fun c hc =>
        passed_inString (IsHexDigit.plain (hex c hc))
      simp only [List.forall_mem_cons] at hhex
      obtain ⟨hh₁, hh₂, hh₃, hh₄, -⟩ := hhex
      have hdigits := hh₁.append (hh₂.append (hh₃.append (hh₄.append ih)))
      exact (passed_escape (by decide)).append hdigits

/-- A string, with its quotes. -/
lemma passed_string (h : IsStringBody t) : Passed false level (34 :: (t ++ [34])) := by
  intro rest
  rw [List.cons_append, splitFrom, if_neg (by decide), List.append_assoc]
  simp only [Bool.false_eq_true, if_false, if_true, Bool.not_false, passed_stringBody h _]
  rw [List.singleton_append, splitFrom, if_neg (by decide)]
  simp

/-- What stands in brackets is one level further in. -/
lemma passed_bracketed {o c : UInt8} (ho : o = 91 ∨ o = 123) (hc : c = 93 ∨ c = 125)
    (h : Passed false (level + 1) t) : Passed false level (o :: (t ++ [c])) := by
  intro rest
  have ho' : o ≠ 0 ∧ o ≠ 34 := by
    obtain rfl | rfl := ho
    all_goals decide
  have hc' : c ≠ 0 ∧ c ≠ 34 ∧ c ≠ 91 ∧ c ≠ 123 := by
    obtain rfl | rfl := hc
    all_goals decide
  have hclose : splitFrom false false (level + 1) (c :: rest) =
      (c :: (splitFrom false false level rest).1, (splitFrom false false level rest).2) := by
    rw [splitFrom, if_neg hc'.1]
    simp [hc'.2, hc]
  rw [List.cons_append, splitFrom, if_neg ho'.1, List.append_assoc]
  simp only [Bool.false_eq_true, if_false, ho'.2, ho, if_true, h _, List.singleton_append, hclose]
  simp

/-- **The loop passes over well formed texts**, those of elements and members as long as they stand
    in brackets. -/
lemma passed_of_isJson (h : IsJson part objects arrays t) (hlevel : 0 ≤ level)
    (hpart : part = .value ∨ 0 < level) : Passed false level t := by
  have hcolon {level : Int} : Passed false level [58] := passed_neutral ⟨by decide, by decide,
    by decide, by decide, by decide, by decide, .inl (by decide)⟩
  have hcomma {level : Int} (hpos : 0 < level) : Passed false level [44] :=
    passed_neutral ⟨by decide, by decide, by decide, by decide, by decide, by decide,
      .inr (by omega)⟩
  induction h generalizing level with
  | scalar h => exact passed_scalar h
  | string h => exact passed_string h
  | noElements h => exact passed_bracketed (.inl rfl) (.inl rfl) (passed_ws h)
  | array h ih =>
      exact passed_bracketed (.inl rfl) (.inl rfl) (ih (by omega) (.inr (by omega)))
  | noMembers h => exact passed_bracketed (.inr rfl) (.inr rfl) (passed_ws h)
  | object h ih =>
      exact passed_bracketed (.inr rfl) (.inr rfl) (ih (by omega) (.inr (by omega)))
  | element before value behind ih =>
      exact (passed_ws before).append ((ih hlevel (.inl rfl)).append (passed_ws behind))
  | elements first rest ihFirst ihRest =>
      have hpos := hpart.resolve_left (by rintro ⟨⟩)
      exact (ihFirst hlevel (.inr hpos)).append
        ((hcomma hpos).append (ihRest hlevel (.inr hpos)))
  | @member _ _ w k u v t z before key colon behindColon value behind ih =>
      have hvalue := (passed_ws behindColon).append
        ((ih hlevel (.inl rfl)).append (passed_ws behind))
      have hmember := (passed_ws before).append ((passed_string key).append
        ((passed_ws colon).append (hcolon.append hvalue)))
      simpa [List.append_assoc] using hmember
  | members first rest ihFirst ihRest =>
      have hpos := hpart.resolve_left (by rintro ⟨⟩)
      exact (ihFirst hlevel (.inr hpos)).append
        ((hcomma hpos).append (ihRest hlevel (.inr hpos)))

lemma passed_of_isJsonText (h : IsJsonText t) : Passed false 0 t := by
  obtain ⟨objects, arrays, before, value, behind, hbefore, hvalue, hbehind, rfl⟩ := h
  exact (passed_ws hbefore).append
    ((passed_of_isJson hvalue (Int.le_refl 0) (.inl rfl)).append (passed_ws hbehind))

/-- **The messages are split** at the commas between them, and nowhere else. -/
lemma splitFrom_joined {messages : List Bytes} (h : ∀ message ∈ messages, IsJsonText message)
    (hrest : rest = [] ∨ ∃ behind, rest = 0 :: behind) :
    splitFrom false false 0 (joined 44 messages ++ rest) =
      (joined 0 messages ++ rest, true) := by
  have hdone : splitFrom false false 0 rest = (rest, true) := by
    obtain rfl | ⟨behind, rfl⟩ := hrest
    · rfl
    · rfl
  induction messages with
  | nil => exact hdone
  | cons message messages ih =>
      rw [List.forall_mem_cons] at h
      obtain ⟨hmessage, hmessages⟩ := h
      cases messages with
      | nil => rw [joined, joined, passed_of_isJsonText hmessage, hdone]
      | cons next messages =>
          have hcomma : ∀ t, splitFrom false false 0 (44 :: t) =
              (0 :: (splitFrom false false 0 t).1, (splitFrom false false 0 t).2) := by
            intro t
            rw [splitFrom, if_neg (by decide)]
            simp
          rw [joined_cons (List.cons_ne_nil _ _), joined_cons (List.cons_ne_nil _ _),
            List.append_assoc, passed_of_isJsonText hmessage, List.cons_append, hcomma,
            ih hmessages, List.append_assoc, List.cons_append]

end Splitting

/-! ## Texts have something in them -/

section NotEmpty

variable {t : Bytes}

/-- A JSON text has a value in it. -/
lemma JsonText.IsJsonText.ne_nil (h : IsJsonText t) : t ≠ [] := by
  obtain ⟨objects, arrays, before, value, behind, hbefore, hvalue, hbehind, rfl⟩ := h
  intro hnil
  simp only [List.append_eq_nil_iff] at hnil
  rw [hnil.2.1] at hvalue
  cases hvalue with
  | scalar h => exact h.ne_nil rfl

end NotEmpty

/-! ## Pieces of a memory -/

section Pieces

variable {m : Memory} {w : OffsetWindow} {texts : List Bytes} {t : Bytes}

/-- What lies at a place of the buffer, up to a NUL, is in its cells. -/
lemma Memory.drop_of_reads {i : Nat} (h : m.Reads i (t ++ [0])) (ht : 0 ∉ t) :
    ∃ rest, m.cells.drop i = t ++ rest ∧ (rest = [] ∨ ∃ behind, rest = 0 :: behind) := by
  induction t generalizing i with
  | nil =>
      refine ⟨m.cells.drop i, rfl, ?_⟩
      cases hdrop : m.cells.drop i with
      | nil => exact .inl rfl
      | cons c rest =>
          have hbyte : m.cells.getD i 0 = 0 := h.1
          rw [List.getD_eq_getElem?_getD, ← List.head?_drop, hdrop] at hbyte
          exact .inr ⟨rest, congrArg (· :: rest) hbyte⟩
  | cons c t ih =>
      rw [List.mem_cons, not_or] at ht
      obtain ⟨hbyte, hrest⟩ := h
      obtain ⟨rest, hdrop, hend⟩ := ih (i := i + 1) (by simpa using hrest) ht.2
      have hc : m.cells.getD i 0 = c := hbyte
      have hlt : i < m.cells.length := by
        by_contra hge
        rw [List.getD_eq_getElem?_getD, List.getElem?_eq_none (not_lt.mp hge)] at hc
        exact ht.1 hc
      rw [List.getD_eq_getElem?_getD, List.getElem?_eq_getElem hlt] at hc
      refine ⟨rest, ?_, hend⟩
      rw [List.drop_eq_getElem_cons hlt, hdrop, List.cons_append]
      exact congrArg (· :: _) hc

lemma Memory.stringAt_of_reads {i : Nat} (h : m.Reads i (t ++ [0])) (ht : 0 ∉ t) :
    m.stringAt i = t := by
  obtain ⟨rest, hdrop, hend⟩ := Memory.drop_of_reads h ht
  rw [stringAt, hdrop]
  obtain rfl | ⟨behind, rfl⟩ := hend
  · rw [List.append_nil, cString, List.takeWhile_eq_self_iff]
    intro c hc
    exact bne_iff_ne.mpr fun hzero => ht (hzero ▸ hc)
  · exact cString_append_zero ht behind

lemma pbccGets_empty (h : w.Empty) (k : Nat) : pbccGets m k w = List.replicate k none := by
  induction k with
  | zero => rfl
  | succ k ih =>
      have hnext : pbccGet m w = (none, w) := by
        rw [pbccGet, OffsetWindow.next_of_empty h]
        rfl
      rw [pbccGets, hnext, ih]
      rfl

lemma handsOut_empty (h : w.Empty) : HandsOut m w [] := by
  intro k
  rw [pbccGets_empty h]
  simp

/-- A piece at the front of a window. -/
lemma pbccGet_piece {ofs stop : Nat} (h : m.Reads ofs (t ++ [0])) (ht : 0 ∉ t) (hlt : ofs < stop)
    (hstop : ofs + t.length ≤ stop) :
    pbccGet m ⟨ofs, stop⟩ = (some t, ⟨ofs + t.length + 1, stop⟩) := by
  have htext := Memory.stringAt_of_reads h ht
  simp only [pbccGet, OffsetWindow.next, if_pos hlt, htext, if_pos hstop, Option.map_some]

lemma HandsOut.cons {w' : OffsetWindow} (hfirst : pbccGet m w = (some t, w'))
    (hrest : HandsOut m w' texts) : HandsOut m w (t :: texts) := by
  intro k
  cases k with
  | zero => simp [pbccGets]
  | succ k =>
      have hlen : (texts.map some ++ List.replicate k none).take k =
          (texts.map some ++ List.replicate (k + 1) none).take k := by
        rw [List.take_append, List.take_append, List.take_replicate, List.take_replicate]
        congr 2
        omega
      rw [pbccGets, hfirst, hrest k, hlen]
      rfl

/-- **Pieces are handed out one after the other**, from a window that ends with the last of them or
    behind its NUL. -/
lemma handsOut_pieces {ofs stop : Nat} (hne : texts ≠ []) (hzero : ∀ t ∈ texts, 0 ∉ t)
    (h : m.Reads ofs (joined 0 texts ++ [0]))
    (hstop : stop = ofs + (joined 0 texts).length + 1 ∨
      (stop = ofs + (joined 0 texts).length ∧ ∀ t ∈ texts, t ≠ [])) :
    HandsOut m ⟨ofs, stop⟩ texts := by
  induction texts generalizing ofs with
  | nil => exact absurd rfl hne
  | cons t texts ih =>
      rw [List.forall_mem_cons] at hzero
      obtain ⟨ht, htexts⟩ := hzero
      have hpos : (∀ u ∈ t :: texts, u ≠ []) → 0 < t.length := fun hall =>
        List.length_pos_of_ne_nil (hall t List.mem_cons_self)
      by_cases hlast : texts = []
      · subst hlast
        rw [joined] at h hstop
        have hlt : ofs < stop := by
          obtain hstop | ⟨hstop, hall⟩ := hstop
          · omega
          · have hlength := hpos hall
            omega
        refine HandsOut.cons (pbccGet_piece h ht hlt (by omega)) (handsOut_empty ?_)
        change stop ≤ ofs + t.length + 1
        omega
      · have hlen := length_joined_cons (c := 0) (t := t) hlast
        rw [joined_cons hlast, List.append_assoc, List.cons_append, Memory.reads_append] at h
        obtain ⟨hfirst, hbyte, hrest⟩ := h
        have hpiece : m.Reads ofs (t ++ [0]) := Memory.reads_append.mpr ⟨hfirst, hbyte, trivial⟩
        have hnext : m.Reads (ofs + t.length + 1 : Nat) (joined 0 texts ++ [0]) := by
          simpa using hrest
        refine HandsOut.cons (pbccGet_piece hpiece ht (by omega) (by omega)) ?_
        refine ih hlast htexts hnext ?_
        obtain hstop | ⟨hstop, hall⟩ := hstop
        · exact .inl (by omega)
        · exact .inr ⟨by omega, fun u hu => hall u (List.mem_cons_of_mem t hu)⟩

end Pieces

/-! ## The messages -/

namespace Memory

variable {m m' : Memory} {pre t t' post : Bytes}

/-- A part of the cells lies where it stands. -/
lemma reads_cells (h : m.cells = pre ++ (t ++ post)) : m.Reads pre.length t := by
  induction t generalizing pre with
  | nil => trivial
  | cons c t ih =>
      refine ⟨?_, ?_⟩
      · change m.cells.getD pre.length 0 = c
        simp [h, List.getD_eq_getElem?_getD]
      · have hrest := @ih (pre ++ [c]) (by simp [h])
        simpa using hrest

/-- Behind a part that was replaced, nothing has changed. -/
lemma byte_replaced (h : m.cells = pre ++ (t ++ post)) (h' : m'.cells = pre ++ (t' ++ post))
    (hlen : t'.length = t.length) {j : Int} (hj : pre.length + t.length ≤ j) :
    m'.byte j = m.byte j := by
  obtain ⟨j, rfl⟩ := Int.eq_ofNat_of_zero_le (by omega : 0 ≤ j)
  change m'.cells.getD j 0 = m.cells.getD j 0
  simp only [h, h', List.getD_eq_getElem?_getD]
  rw [List.getElem?_append_right (by omega), List.getElem?_append_right (by omega),
    List.getElem?_append_right (by omega), List.getElem?_append_right (by omega), hlen]

end Memory

/-- `pbcc_split_array` on the messages of a reply, which are ended by a NUL. -/
lemma pbccSplitArray_reads {m : Memory} {i : Nat} {messages : List Bytes} (hi : i ≤ m.cells.length)
    (h : m.Reads i (joined 44 messages ++ [0])) (hmessages : ∀ t ∈ messages, IsJsonText t) :
    (pbccSplitArray m i).2 = true ∧
      (pbccSplitArray m i).1.Reads i (joined 0 messages ++ [0]) ∧
      ∀ (p : Int) (t : Bytes), i + (joined 44 messages).length ≤ p → m.Reads p t →
        (pbccSplitArray m i).1.Reads p t := by
  have hzero : 0 ∉ joined 44 messages := by
    intro hmem
    obtain hc | ⟨t, ht, hx⟩ := mem_joined hmem
    · cases hc
    · exact zero_not_mem_of_isJsonText (hmessages t ht) hx
  obtain ⟨rest, hdrop, hend⟩ := Memory.drop_of_reads h hzero
  have hsplit := splitFrom_joined hmessages hend
  rw [← hdrop] at hsplit
  have hlen := length_joined 0 44 messages
  have hpre : (m.cells.take i).length = i := by
    rw [List.length_take]
    omega
  have hcells : m.cells = m.cells.take i ++ (joined 44 messages ++ rest) := by
    rw [← hdrop, List.take_append_drop]
  have hcells' : (pbccSplitArray m i).1.cells = m.cells.take i ++ (joined 0 messages ++ rest) := by
    rw [pbccSplitArray, hsplit]
  have hframe : ∀ (p : Int) (t : Bytes), i + (joined 44 messages).length ≤ p → m.Reads p t →
      (pbccSplitArray m i).1.Reads p t := by
    intro p t hp ht
    refine ht.congr fun j hlow _ => Memory.byte_replaced hcells hcells' hlen ?_
    omega
  refine ⟨by rw [pbccSplitArray, hsplit], ?_, hframe⟩
  have hreads := Memory.reads_cells hcells'
  rw [hpre] at hreads
  rw [Memory.reads_append] at h ⊢
  refine ⟨hreads, hframe _ _ (by omega) ?_⟩
  rw [hlen]
  exact h.2

end PubNub
