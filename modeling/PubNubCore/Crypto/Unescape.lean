import PubNubCore.Core.Types
import PubNubCore.Lib.JsonDenotation
import PubNubCore.Lib.JsonObjects
import PubNubCore.Lib.Printing

/-!
# Slashes without backslashes

`pubnub_json_string_unescape_slash` of `core/pubnub_crypto.c` takes the backslashes away that stand in
front of slashes, in the place of the string.  Whether a backslash begins an escape is not looked at:
where it is escaped itself, the escape in front of it loses its second character.

The loop keeps a run of characters that it has not moved yet.  In front of the run lies a gap, a byte
long for each slash, and in front of the gap what has been written: `Keeps`.
-/

namespace PubNub

open JsonText

/-! ## The function -/

section Model

variable {n : Nat}

/-- The variables of the loop. -/
structure UnescapeState (n : Nat) where
  jsonString : CharArray n
  s : Nat
  dest : Nat
  stop : Nat
  toPad : Nat

/-- Moves the run between `s` and `end` to `dest`. -/
def UnescapeState.moveRun (st : UnescapeState n) : Option (UnescapeState n) :=
  let distance := st.stop - st.s
  if 0 < distance then do
    let a ← st.jsonString.memmove st.dest st.s distance
    some { st with jsonString := a, dest := st.dest + distance }
  else some st

/-- The character at `end` is a backslash, and a slash is next. -/
def UnescapeState.atSlash (st : UnescapeState n) (c : UInt8) : Option Bool :=
  if c = 92 then (st.jsonString.bytes[st.stop + 1]?).map (· == 47) else some false

/-- `none` where something is read or written outside of the array, or the fuel is used up. -/
def UnescapeState.loop : Nat → UnescapeState n → Option (UnescapeState n)
  | 0, _ => none
  | fuel + 1, st => do
      let c ← st.jsonString.bytes[st.stop]?
      if c = 0 then some st
      else
        let slash ← st.atSlash c
        if slash then
          let st ← st.moveRun
          let a ← st.jsonString.write st.dest [47]
          loop fuel { jsonString := a, s := st.stop + 2, dest := st.dest + 1, stop := st.stop + 2,
                      toPad := st.toPad + 1 }
        else loop fuel { st with stop := st.stop + 1 }

/-- Ends the string that has become shorter. -/
def UnescapeState.endString (st : UnescapeState n) : Option (CharArray n) :=
  if 0 < st.toPad then st.jsonString.write st.dest [0] else some st.jsonString

/-- The array afterwards, and what the assertion at the end compares. -/
def pubnubJsonStringUnescapeSlash (jsonString : CharArray n) : Option (CharArray n × Bool) := do
  let st ← UnescapeState.loop (n + 1) ⟨jsonString, 0, 0, 0, 0⟩
  let st ← st.moveRun
  let a ← st.endString
  let last ← a.bytes[st.dest + st.toPad]?
  some (a, last == 0)

end Model

/-! ## What the loop computes -/

def unescapeSlash : Bytes → Bytes
  | 92 :: 47 :: t => 47 :: unescapeSlash t
  | c :: t => c :: unescapeSlash t
  | [] => []

lemma unescapeSlash_ne {c : UInt8} (h : c ≠ 92) (t : Bytes) :
    unescapeSlash (c :: t) = c :: unescapeSlash t := by
  rw [unescapeSlash]
  rintro t rfl
  exact absurd rfl h

lemma unescapeSlash_next {d : UInt8} (h : d ≠ 47) (t : Bytes) :
    unescapeSlash (92 :: d :: t) = 92 :: unescapeSlash (d :: t) := by
  rw [unescapeSlash]
  rintro t' - heq
  exact h (List.cons.inj heq).1

lemma length_unescapeSlash (t : Bytes) : (unescapeSlash t).length ≤ t.length := by
  fun_induction unescapeSlash t with
  | case1 t ih =>
      rw [List.length_cons, List.length_cons, List.length_cons]
      omega
  | case2 c t _ ih =>
      rw [List.length_cons, List.length_cons]
      omega
  | case3 => exact Nat.le_refl _

lemma zero_not_mem_unescapeSlash {t : Bytes} (h : 0 ∉ t) : 0 ∉ unescapeSlash t := by
  fun_induction unescapeSlash t with
  | case1 t ih =>
      rw [List.mem_cons, not_or]
      exact ⟨by decide, ih fun hmem => h (List.mem_cons_of_mem _ (List.mem_cons_of_mem _ hmem))⟩
  | case2 c t _ ih =>
      rw [List.mem_cons, not_or] at h ⊢
      exact ⟨h.1, ih h.2⟩
  | case3 => exact h

/-- What is left of a string behind a backslash that no slash follows, and behind other characters. -/
lemma unescapeSlash_cons {c : UInt8} {t : Bytes} (h : ¬ (c = 92 ∧ t.head? = some 47)) :
    unescapeSlash (c :: t) = c :: unescapeSlash t := by
  by_cases hc : c = 92
  · subst hc
    cases t with
    | nil => rfl
    | cons d t =>
        refine unescapeSlash_next ?_ t
        rintro rfl
        exact h ⟨rfl, rfl⟩
  · exact unescapeSlash_ne hc t

/-! ## The loop -/

section Loop

variable {n : Nat} {st : UnescapeState n} {written run rest behind : Bytes} {c : UInt8}

/-- The array holds what has been written, a gap, the run, and what has not been looked at. -/
structure Keeps (st : UnescapeState n) (written run rest behind : Bytes) : Prop where
  dest_eq : st.dest = written.length
  s_eq : st.s = written.length + st.toPad
  stop_eq : st.stop = written.length + st.toPad + run.length
  bytes_eq : ∃ gap, gap.length = st.toPad ∧
    st.jsonString.bytes = written ++ gap ++ run ++ (rest ++ 0 :: behind)

/-- The run is moved up to what has been written. -/
lemma Keeps.moveRun (h : Keeps st written run rest behind) :
    ∃ st', st.moveRun = some st' ∧ st'.toPad = st.toPad ∧ st'.stop = st.stop ∧
      st'.dest = (written ++ run).length ∧ ∃ gap, gap.length = st.toPad ∧
        st'.jsonString.bytes = written ++ run ++ gap ++ (rest ++ 0 :: behind) := by
  obtain ⟨gap, hgap, hbytes⟩ := h.bytes_eq
  have hdistance : st.stop - st.s = run.length := by
    rw [h.stop_eq, h.s_eq, Nat.add_sub_cancel_left]
  rw [UnescapeState.moveRun, hdistance]
  cases run with
  | nil =>
      refine ⟨st, if_neg (Nat.lt_irrefl 0), rfl, rfl, ?_, gap, hgap, ?_⟩
      · rw [h.dest_eq, List.append_nil]
      · rw [hbytes, List.append_nil, List.append_nil]
  | cons c run =>
      obtain ⟨a, ha, gap', hgap', hbytes'⟩ := CharArray.exists_memmove hbytes
      have hpos : 0 < (c :: run).length := Nat.zero_lt_succ _
      rw [if_pos hpos, h.dest_eq, h.s_eq, ← hgap, ha]
      exact ⟨_, rfl, rfl, rfl, List.length_append.symm, gap', hgap', hbytes'⟩

lemma Keeps.read (h : Keeps st written run (c :: rest) behind) :
    st.jsonString.bytes[st.stop]? = some c := by
  obtain ⟨gap, hgap, hbytes⟩ := h.bytes_eq
  rw [hbytes, h.stop_eq, ← hgap, ← List.length_append, ← List.length_append,
    List.getElem?_append_right (Nat.le_refl _), Nat.sub_self]
  rfl

lemma Keeps.read_end (h : Keeps st written run [] behind) :
    st.jsonString.bytes[st.stop]? = some 0 := by
  obtain ⟨gap, hgap, hbytes⟩ := h.bytes_eq
  rw [hbytes, h.stop_eq, ← hgap, ← List.length_append, ← List.length_append,
    List.getElem?_append_right (Nat.le_refl _), Nat.sub_self]
  rfl

lemma Keeps.next (h : Keeps st written run (c :: rest) behind) :
    Keeps { st with stop := st.stop + 1 } written (run ++ [c]) rest behind := by
  obtain ⟨gap, hgap, hbytes⟩ := h.bytes_eq
  refine ⟨h.dest_eq, h.s_eq, ?_, gap, hgap, ?_⟩
  · dsimp only
    rw [h.stop_eq, List.length_append]
    rfl
  · rw [hbytes]
    simp only [List.append_assoc, List.cons_append, List.nil_append]

/-- A slash takes the place of the gap's first byte, or of its backslash. -/
lemma Keeps.slash (h : Keeps st written run (92 :: 47 :: rest) behind) :
    ∃ moved a, st.moveRun = some moved ∧ moved.jsonString.write moved.dest [47] = some a ∧
      Keeps ⟨a, moved.stop + 2, moved.dest + 1, moved.stop + 2, moved.toPad + 1⟩
        (written ++ run ++ [47]) [] rest behind := by
  obtain ⟨moved, hmoved, hpad, hstop, hdest, gap, hgap, hbytes⟩ := h.moveRun
  have hroom : ([47] : Bytes).length ≤ (gap ++ (92 :: 47 :: rest ++ 0 :: behind)).length := by
    rw [List.length_append, List.length_append, List.length_cons, List.length_cons, List.length_cons,
      List.length_nil]
    omega
  obtain ⟨a, ha, hbytes'⟩ := CharArray.exists_write
    (hbytes.trans (List.append_assoc _ gap _)) hroom
  rw [← hdest] at ha
  refine ⟨moved, a, hmoved, ha, ?_, ?_, ?_, (gap ++ [92, 47]).drop 1, ?_, ?_⟩
  · dsimp only
    rw [hdest, List.length_append, List.length_append, List.length_append, List.length_singleton]
  · dsimp only
    rw [hstop, h.stop_eq, hpad]
    simp only [List.length_append, List.length_cons, List.length_nil]
    omega
  · dsimp only
    rw [hstop, h.stop_eq, hpad]
    simp only [List.length_append, List.length_cons, List.length_nil]
    omega
  · dsimp only
    rw [List.length_drop, List.length_append, hgap, hpad]
    rfl
  · have hsplit : gap ++ (92 :: 47 :: rest ++ 0 :: behind) =
        gap ++ [92, 47] ++ (rest ++ 0 :: behind) := by simp
    rw [hbytes', hsplit, List.length_singleton, List.drop_append_of_le_length (by simp)]
    simp only [List.append_assoc, List.append_nil]

/-- The loop looks at the whole string, and nothing else of the array. -/
lemma Keeps.loop {fuel : Nat} (h : Keeps st written run rest behind) (hrest : 0 ∉ rest)
    (hfuel : rest.length < fuel) : ∃ st' written' run', st.loop fuel = some st' ∧
      Keeps st' written' run' [] behind ∧ written' ++ run' = written ++ run ++ unescapeSlash rest := by
  fun_induction unescapeSlash rest generalizing st written run fuel with
  | case1 t ih =>
      obtain ⟨fuel, rfl⟩ := Nat.exists_eq_succ_of_ne_zero (Nat.ne_zero_of_lt hfuel)
      obtain ⟨moved, a, hmoved, ha, hkeeps⟩ := h.slash
      have hnext : st.jsonString.bytes[st.stop + 1]? = some 47 := h.next.read
      have hzero : 0 ∉ t := fun hmem => hrest (List.mem_cons_of_mem _ (List.mem_cons_of_mem _ hmem))
      have hshort : t.length < fuel := by
        rw [List.length_cons, List.length_cons] at hfuel
        omega
      obtain ⟨st', written', run', hloop, hlast, htext⟩ := ih hkeeps hzero hshort
      refine ⟨st', written', run', ?_, hlast, ?_⟩
      · have hslash : st.atSlash 92 = some true := by
          rw [UnescapeState.atSlash, if_pos rfl, hnext]
          rfl
        simp only [UnescapeState.loop, Option.bind_eq_bind, h.read, Option.bind_some, hslash, hmoved]
        rw [if_neg (by decide), if_pos trivial, ha, Option.bind_some]
        exact hloop
      · rw [htext]
        simp only [List.append_assoc, List.append_nil, List.cons_append, List.nil_append]
  | case2 c t hno ih =>
      obtain ⟨fuel, rfl⟩ := Nat.exists_eq_succ_of_ne_zero (Nat.ne_zero_of_lt hfuel)
      rw [List.mem_cons, not_or] at hrest
      have hshort : t.length < fuel := Nat.lt_of_succ_lt_succ hfuel
      obtain ⟨st', written', run', hloop, hlast, htext⟩ := ih h.next hrest.2 hshort
      refine ⟨st', written', run', ?_, hlast, ?_⟩
      · have hslash : st.atSlash c = some false := by
          rw [UnescapeState.atSlash]
          split
          · rename_i hc
            have hbyte : ∃ d, st.jsonString.bytes[st.stop + 1]? = some d ∧ d ≠ 47 := by
              cases t with
              | nil => exact ⟨0, h.next.read_end, by decide⟩
              | cons d t =>
                  refine ⟨d, h.next.read, ?_⟩
                  rintro rfl
                  exact hno t hc rfl
            obtain ⟨d, hd, hne⟩ := hbyte
            rw [hd, Option.map_some, beq_eq_false_iff_ne.mpr hne]
          · rfl
        simp only [UnescapeState.loop, Option.bind_eq_bind, h.read, Option.bind_some, hslash]
        rw [if_neg (Ne.symm hrest.1), if_neg Bool.false_ne_true]
        exact hloop
      · rw [htext]
        simp only [List.append_assoc, List.cons_append, List.nil_append]
  | case3 =>
      obtain ⟨fuel, rfl⟩ := Nat.exists_eq_succ_of_ne_zero (Nat.ne_zero_of_lt hfuel)
      refine ⟨st, written, run, ?_, h, (List.append_nil _).symm⟩
      simp only [UnescapeState.loop, Option.bind_eq_bind, h.read_end, Option.bind_some]
      rfl

/-- **The function** ends for every string, inside of the array, with its assertion fulfilled. -/
lemma unescape_eq {t : Bytes} {a : CharArray n} (hbytes : a.bytes = t ++ 0 :: behind)
    (ht : 0 ∉ t) : ∃ b, pubnubJsonStringUnescapeSlash a = some (b, true) ∧
      b.string = some (unescapeSlash t) := by
  have hlength := a.length_bytes
  rw [hbytes, List.length_append, List.length_cons] at hlength
  have hstart : Keeps ⟨a, 0, 0, 0, 0⟩ [] [] t behind := ⟨rfl, rfl, rfl, [], rfl, hbytes⟩
  have hfuel : t.length < n + 1 := by omega
  obtain ⟨st, written, run, hloop, hlast, htext⟩ := hstart.loop ht hfuel
  obtain ⟨moved, hmoved, hpad, -, hdest, gap, hgap, hmovedBytes⟩ := hlast.moveRun
  rw [htext] at hdest hmovedBytes
  change moved.dest = (unescapeSlash t).length at hdest
  change moved.jsonString.bytes = unescapeSlash t ++ gap ++ 0 :: behind at hmovedBytes
  have hzero := zero_not_mem_unescapeSlash ht
  have hafter : ∃ b, moved.endString = some b ∧ b.bytes[moved.dest + moved.toPad]? = some 0 ∧
      b.string = some (unescapeSlash t) := by
    rw [UnescapeState.endString, hdest, hpad, ← hgap]
    cases gap with
    | nil =>
        rw [List.append_nil] at hmovedBytes
        refine ⟨moved.jsonString, if_neg (Nat.lt_irrefl 0), ?_,
          CharArray.string_of_bytes hmovedBytes hzero⟩
        rw [hmovedBytes, List.length_nil, Nat.add_zero, List.getElem?_append_right (Nat.le_refl _),
          Nat.sub_self]
        rfl
    | cons c gap =>
        have hpos : 0 < (c :: gap).length := Nat.zero_lt_succ _
        obtain ⟨b, hb, hbytes'⟩ := CharArray.exists_write (s := [0])
          (hmovedBytes.trans (List.append_assoc _ _ _)) (Nat.zero_lt_succ _)
        have hstring : b.bytes = unescapeSlash t ++ 0 :: (gap ++ 0 :: behind) := by
          rw [hbytes', List.append_assoc]
          rfl
        refine ⟨b, (if_pos hpos).trans hb, ?_, CharArray.string_of_bytes hstring hzero⟩
        rw [hstring, List.getElem?_append_right (Nat.le_add_right _ _), Nat.add_sub_cancel_left,
          List.length_cons, List.getElem?_cons_succ, List.getElem?_append_right (Nat.le_refl _),
          Nat.sub_self]
        rfl
  obtain ⟨b, hb, hlastByte, hstring⟩ := hafter
  refine ⟨b, ?_, hstring⟩
  rw [pubnubJsonStringUnescapeSlash, hloop]
  simp only [Option.bind_eq_bind, Option.bind_some, hmoved, hb, hlastByte]
  rfl

end Loop

/-! ## What the string denotes -/

/-- A backslash that is escaped stands directly in front of a slash. -/
def escapedBackslashSlash : Bytes → Bool
  | 92 :: 92 :: 47 :: _ => true
  | 92 :: _ :: t => escapedBackslashSlash t
  | _ :: t => escapedBackslashSlash t
  | [] => false

lemma escapedBackslashSlash_plain {c : UInt8} (h : c ≠ 92) (t : Bytes) :
    escapedBackslashSlash (c :: t) = escapedBackslashSlash t := by
  rw [escapedBackslashSlash]
  · rintro t rfl
    exact absurd rfl h
  · rintro d t rfl
    exact absurd rfl h

lemma escapedBackslashSlash_escape {c : UInt8} {t : Bytes} (h : ¬ (c = 92 ∧ t.head? = some 47)) :
    escapedBackslashSlash (92 :: c :: t) = escapedBackslashSlash t := by
  rw [escapedBackslashSlash]
  rintro t' rfl rfl
  exact h ⟨rfl, rfl⟩

/-- How many backslashes a body denotes. -/
def backslashes (t : Bytes) : Nat := ((jsonUnits t).map JsonUnit.backslashes).sum

/-- A body denotes the same as another one, unless a backslash that stands for itself is in front of a
    slash, and then it denotes fewer backslashes. -/
def Unescapes (t u : Bytes) : Prop :=
  escapedBackslashSlash t = false ∧ jsonUnits u = jsonUnits t ∨
    escapedBackslashSlash t = true ∧ backslashes u < backslashes t

/-- A unit that has been kept in front. -/
lemma Unescapes.cons {t u t' u' : Bytes} {unit : JsonUnit} (h : Unescapes t u)
    (ht : jsonUnits t' = unit :: jsonUnits t) (hu : jsonUnits u' = unit :: jsonUnits u)
    (hslash : escapedBackslashSlash t' = escapedBackslashSlash t) : Unescapes t' u' := by
  rcases h with ⟨hnone, hunits⟩ | ⟨hsome, hlt⟩
  · exact .inl ⟨hslash.trans hnone, by rw [hu, ht, hunits]⟩
  · refine .inr ⟨hslash.trans hsome, ?_⟩
    rw [backslashes, backslashes, hu, ht, List.map_cons, List.map_cons, List.sum_cons, List.sum_cons]
    exact Nat.add_lt_add_left hlt _

lemma Unescapes.backslashes_le {t u : Bytes} (h : Unescapes t u) : backslashes u ≤ backslashes t := by
  rcases h with ⟨-, hunits⟩ | ⟨-, hlt⟩
  · rw [backslashes, backslashes, hunits]
  · exact hlt.le

lemma JsonText.IsHexDigit.ne_backslash {c : UInt8} (h : IsHexDigit c) : c ≠ 92 := by
  rintro rfl
  rcases h with ⟨-, h⟩ | ⟨-, h⟩ | ⟨h, -⟩
  all_goals exact absurd h (by decide)

/-- What is left of a body is a body. -/
lemma unescapeSlash_stringBody {t : Bytes} (h : IsStringBody t) :
    IsStringBody (unescapeSlash t) ∧ Unescapes t (unescapeSlash t) := by
  induction h with
  | nil => exact ⟨.nil, .inl ⟨rfl, rfl⟩⟩
  | @plain c t control quote backslash rest ih =>
      obtain ⟨hbody, hunescapes⟩ := ih
      rw [unescapeSlash_ne backslash]
      exact ⟨.plain control quote backslash hbody, hunescapes.cons (jsonUnits_plain backslash _)
        (jsonUnits_plain backslash _) (escapedBackslashSlash_plain backslash _)⟩
  | @escape c t known rest ih =>
      obtain ⟨hbody, hunescapes⟩ := ih
      by_cases hslash : c = 47
      · subst hslash
        refine ⟨.plain (by decide) (by decide) (by decide) hbody, ?_⟩
        exact hunescapes.cons (jsonUnits_escape known _) (jsonUnits_plain (by decide) _)
          (escapedBackslashSlash_escape fun hc => absurd hc.1 (by decide))
      rw [unescapeSlash_next hslash]
      by_cases hnext : c = 92 ∧ t.head? = some 47
      · -- The escape loses its second character, and escapes the slash from now on.
        obtain ⟨rfl, hhead⟩ := hnext
        obtain ⟨t, rfl⟩ := List.head?_eq_some_iff.mp hhead
        have hrest : unescapeSlash (47 :: t) = 47 :: unescapeSlash t :=
          unescapeSlash_ne (by decide) t
        rw [hrest] at hbody hunescapes
        have htail : IsStringBody (unescapeSlash t) := by
          cases hbody with
          | plain _ _ _ htail => exact htail
        refine ⟨.escape (by decide) htail, .inr ⟨rfl, ?_⟩⟩
        have hle := hunescapes.backslashes_le
        have hone : backslashes (92 :: 47 :: unescapeSlash t) =
            backslashes (47 :: unescapeSlash t) := rfl
        have htwo : backslashes (92 :: 92 :: 47 :: t) = 1 + backslashes (47 :: t) := rfl
        change backslashes (92 :: 47 :: unescapeSlash t) < _
        omega
      · rw [unescapeSlash_cons hnext]
        exact ⟨.escape known hbody, hunescapes.cons (jsonUnits_escape known _)
          (jsonUnits_escape known _) (escapedBackslashSlash_escape hnext)⟩
  | @unicode h₁ h₂ h₃ h₄ t hex rest ih =>
      obtain ⟨hbody, hunescapes⟩ := ih
      have hdigits := hex
      simp only [List.forall_mem_cons] at hdigits
      obtain ⟨hone, htwo, hthree, hfour, -⟩ := hdigits
      rw [unescapeSlash_next (by decide), unescapeSlash_ne (by decide),
        unescapeSlash_ne hone.ne_backslash, unescapeSlash_ne htwo.ne_backslash,
        unescapeSlash_ne hthree.ne_backslash, unescapeSlash_ne hfour.ne_backslash]
      refine ⟨.unicode hex hbody, hunescapes.cons rfl rfl ?_⟩
      rw [escapedBackslashSlash_escape fun hc => absurd hc.1 (by decide),
        escapedBackslashSlash_plain hone.ne_backslash, escapedBackslashSlash_plain htwo.ne_backslash,
        escapedBackslashSlash_plain hthree.ne_backslash,
        escapedBackslashSlash_plain hfour.ne_backslash]

/-! ## Which strings keep their meaning -/

/-- The string that is there denotes what the other one did, and is no longer; the assertion at the
    end is fulfilled. -/
structure KeepsMeaning {n : Nat} (body : JsonBody) (outcome : Option (CharArray n × Bool)) :
    Prop where
  kept : ∃ b, outcome = some (b, true) ∧ ∃ left : JsonBody,
    b.string = some (34 :: (left.text ++ [34])) ∧ left.text.length ≤ body.text.length ∧
    denoted (jsonUnits left.text) = denoted (jsonUnits body.text)

/-- An array in which a string lies, and something behind it. -/
def CharArray.holding (s behind : Bytes) : CharArray (s.length + (behind.length + 1)) where
  bytes := s ++ 0 :: behind
  length_bytes := by rw [List.length_append, List.length_cons]

lemma unescapeSlash_concat (t : Bytes) : unescapeSlash (t ++ [34]) = unescapeSlash t ++ [34] := by
  fun_induction unescapeSlash t with
  | case1 t ih => exact congrArg (47 :: ·) ih
  | case2 c t hno ih =>
      rw [List.cons_append, unescapeSlash_cons, ih, List.cons_append]
      rintro ⟨hc, hhead⟩
      cases t with
      | nil => cases hhead
      | cons d t =>
          rw [List.cons_append, List.head?_cons, Option.some_inj] at hhead
          exact hno t hc (by rw [hhead])
  | case3 => rfl

/-- The string that is left, in quotes as before. -/
lemma unescape_holding (body : JsonBody) (behind : Bytes) :
    ∃ b, pubnubJsonStringUnescapeSlash (CharArray.holding (34 :: (body.text ++ [34])) behind) =
      some (b, true) ∧ b.string = some (34 :: (unescapeSlash body.text ++ [34])) := by
  have hzero : 0 ∉ 34 :: (body.text ++ [34]) := by
    simp [zero_not_mem_stringBody body.isStringBody]
  obtain ⟨b, hb, hstring⟩ := unescape_eq (a := CharArray.holding (34 :: (body.text ++ [34])) behind)
    rfl hzero
  rw [unescapeSlash_ne (by decide), unescapeSlash_concat] at hstring
  exact ⟨b, hb, hstring⟩

lemma keepsMeaning_of_none {body : JsonBody} (behind : Bytes)
    (h : escapedBackslashSlash body.text = false) : KeepsMeaning body
      (pubnubJsonStringUnescapeSlash (CharArray.holding (34 :: (body.text ++ [34])) behind)) := by
  obtain ⟨b, hb, hstring⟩ := unescape_holding body behind
  obtain ⟨hleft, ⟨-, hunits⟩ | ⟨hsome, -⟩⟩ := unescapeSlash_stringBody body.isStringBody
  · exact ⟨b, hb, ⟨unescapeSlash body.text, hleft⟩, hstring, length_unescapeSlash body.text,
      congrArg denoted hunits⟩
  · rw [h] at hsome
    cases hsome

lemma none_of_keepsMeaning {body : JsonBody} {behind : Bytes} (h : KeepsMeaning body
      (pubnubJsonStringUnescapeSlash (CharArray.holding (34 :: (body.text ++ [34])) behind))) :
    escapedBackslashSlash body.text = false := by
  obtain ⟨b, hb, left, hleft, -, hdenoted⟩ := h
  obtain ⟨b', hb', hstring⟩ := unescape_holding body behind
  rw [hb] at hb'
  cases hb'
  have htext : left.text = unescapeSlash body.text := by
    have hsame := Option.some.inj (hleft.symm.trans hstring)
    exact List.append_cancel_right (List.cons.inj hsame).2
  rw [htext] at hdenoted
  obtain ⟨-, ⟨hnone, -⟩ | ⟨-, hlt⟩⟩ := unescapeSlash_stringBody body.isStringBody
  · exact hnone
  · have hcount := congrArg (List.count 92) hdenoted
    rw [count_denoted, count_denoted] at hcount
    exact absurd hcount (Nat.ne_of_lt hlt)

/-- **Strings without escaped slashes.**  The string denotes the same characters as before if and only
    if no backslash that is escaped stands directly in front of a slash. -/
theorem pubnubJsonStringUnescapeSlash_right (body : JsonBody) (behind : Bytes) :
    KeepsMeaning body (pubnubJsonStringUnescapeSlash
        (CharArray.holding (34 :: (body.text ++ [34])) behind)) ↔
      escapedBackslashSlash body.text = false :=
  ⟨none_of_keepsMeaning, keepsMeaning_of_none behind⟩

/-- A backslash and a slash become a slash. -/
theorem pubnubJsonStringUnescapeSlash_not_always_right : ¬ ∀ (body : JsonBody) (behind : Bytes),
    KeepsMeaning body (pubnubJsonStringUnescapeSlash
      (CharArray.holding (34 :: (body.text ++ [34])) behind)) := by
  intro h
  have hbody : IsStringBody [92, 92, 47] :=
    .escape (by decide) (.plain (by decide) (by decide) (by decide) .nil)
  have hnone : escapedBackslashSlash [92, 92, 47] = false :=
    none_of_keepsMeaning (h ⟨[92, 92, 47], hbody⟩ [])
  exact absurd hnone (by decide)

end PubNub
