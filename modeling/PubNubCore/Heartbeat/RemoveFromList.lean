import PubNubCore.Lib.SeparatedLists
import PubNubCore.Network.Text

/-!
# Taking channels out of a saved list

`lib/pbstr_remove_from_list.c`: the channels (or channel groups) which automatic heartbeats keep are
a text with commas, and those of a leave are taken out of it in place, one pass for each of them.

`pbstrRemoveFromList_right` says when what is left is the list without the others: if every pass finds
what it looks for at the end of the list only.  Where something is found further ahead, the text behind
it is moved without the character that ends it, so that the last characters stay there twice; the scan
goes on where it was, that is behind what it has not looked at; and a single character behind it is
cut off with it.

The text between `list` and the end that was measured is a list of bytes of constant length; what a
pass leaves behind is that text up to the first zero.
-/

namespace PubNub

/-! ## The passes -/

/-- `PUBNUB_MAX_OBJECT_LENGTH` of this file. -/
def maxListLength : Nat := 30000

/-- The comma that ends the element at `start`, or the end. -/
def elementEnd (text : Bytes) (start stop : Nat) : Nat :=
  start + ((text.take stop).drop start).findIdx (· == 44)

/-- `memmove` inside a text. -/
def moveText (text : Bytes) (dest src n : Nat) : Bytes :=
  text.take dest ++ (text.drop src).take n ++ text.drop (dest + n)

/-- The loop of `remove_member`; `none` if it does not end. -/
def removeLoop (member : Bytes) : Nat → Bytes → Nat → Nat → Option Bytes
  | 0, text, start, stop => if start < stop then none else some text
  | fuel + 1, text, start, stop =>
      if start < stop then
        let chEnd := elementEnd text start stop
        if chEnd - start = member.length ∧ (text.drop start).take member.length = member then
          let rest := if stop ≠ chEnd then stop - (chEnd + 1) else 0
          if 1 < rest then
            removeLoop member fuel (moveText text start (chEnd + 1) rest) (chEnd + 1)
              (stop - (chEnd + 1 - start))
          else
            removeLoop member fuel (text.set (if 0 < start then start - 1 else start) 0) (chEnd + 1)
              stop
        else removeLoop member fuel text (chEnd + 1) stop
      else some text

/-- `remove_member`. -/
def removeMember (list member : Bytes) : Option Bytes :=
  let stop := min list.length maxListLength
  (removeLoop member stop (list.take stop) 0 stop).map fun text => cString (text ++ list.drop stop)

/-- The loop of `pbstr_remove_from_list`. -/
def removeMembersLoop (leave : Bytes) : Nat → Bytes → Nat → Nat → Option Bytes
  | 0, list, start, stop => if start < stop then none else some list
  | fuel + 1, list, start, stop =>
      if start < stop then
        let chEnd := elementEnd leave start stop
        (removeMember list ((leave.drop start).take (chEnd - start))).bind fun list =>
          if list = [] then some list else removeMembersLoop leave fuel list (chEnd + 1) stop
      else some list

/-- `pbstr_remove_from_list`. -/
def pbstrRemoveFromList (list leaveList : Bytes) : Option Bytes :=
  let stop := min leaveList.length maxListLength
  removeMembersLoop leaveList stop list 0 stop

/-! ## Lists with commas -/

/-- The elements with commas between them. -/
def commaList (elements : List Bytes) : Bytes := [44].intercalate elements

/-- The elements with a comma behind each of them. -/
def ahead (elements : List Bytes) : Bytes := elements.flatMap (· ++ [44])

/-- The elements of a leave list. -/
def leaveElements (leaveList : Bytes) : List Bytes :=
  if leaveList = [] then [] else leaveList.splitOn 44

/-- The list without what is in the leave list. -/
def withoutMembers (list leaveList : Bytes) : Bytes :=
  commaList ((list.splitOn 44).filter (· ∉ leaveElements leaveList))

/-- Every pass finds what it looks for at the end only. -/
def FoundLast : List Bytes → List Bytes → Prop
  | _, [] => True
  | elements, member :: members =>
      member ∉ elements.dropLast ∧ FoundLast (elements.filter (· ≠ member)) members

instance decidableFoundLast : ∀ elements members, Decidable (FoundLast elements members)
  | _, [] => isTrue trivial
  | elements, member :: members =>
      have := decidableFoundLast (elements.filter (· ≠ member)) members
      inferInstanceAs (Decidable (_ ∧ _))

/-- Nothing is found but at the end of the list, empty elements are not taken out, and the texts are
    read to their ends. -/
structure RemovesClear (list leaveList : Bytes) : Prop where
  foundLast : FoundLast (list.splitOn 44) (leaveElements leaveList)
  named : [] ∈ leaveElements leaveList → [] ∉ list.splitOn 44
  list : list.length ≤ maxListLength
  leaveList : leaveList.length ≤ maxListLength

/-- One element is taken out that is there ahead of the last one, which does not end with it. -/
structure OneAhead (list leaveList : Bytes) : Prop where
  one : leaveList.splitOn 44 = [leaveList] ∧ leaveList ≠ []
  ahead : leaveList ∈ (list.splitOn 44).dropLast
  last : ∃ last, (list.splitOn 44).getLast? = some last ∧ 2 ≤ last.length ∧ ¬ leaveList <:+ last
  list : list.length ≤ maxListLength
  leaveList : leaveList.length ≤ maxListLength

variable {e k : Bytes} {es ms ps : List Bytes}

@[simp] lemma commaList_nil : commaList [] = [] := rfl

@[simp] lemma commaList_singleton : commaList [e] = e := List.intercalate_singleton

lemma commaList_cons_cons (e' : Bytes) : commaList (e :: e' :: es) = e ++ 44 :: commaList (e' :: es) := by
  rw [commaList, List.intercalate_cons_cons, commaList, List.append_assoc]
  rfl

lemma commaList_cons_of_ne (h : es ≠ []) : commaList (e :: es) = e ++ 44 :: commaList es := by
  obtain ⟨e', es, rfl⟩ := List.exists_cons_of_ne_nil h
  exact commaList_cons_cons e'

lemma ahead_cons (e : Bytes) (es : List Bytes) : ahead (e :: es) = e ++ 44 :: ahead es := by
  rw [ahead, List.flatMap_cons, List.append_assoc]
  rfl

/-- What is ahead of the other elements. -/
lemma commaList_append (ps : List Bytes) (h : es ≠ []) : commaList (ps ++ es) = ahead ps ++ commaList es := by
  induction ps with
  | nil => rfl
  | cons p ps ih =>
      have hne : ps ++ es ≠ [] := fun hnil => h (List.append_eq_nil_iff.mp hnil).2
      rw [List.cons_append, commaList_cons_of_ne hne, ih, ahead_cons, List.append_assoc,
        List.cons_append]

lemma ahead_eq (h : ps ≠ []) : ahead ps = commaList ps ++ [44] := by
  induction ps with
  | nil => exact absurd rfl h
  | cons p ps ih =>
      rw [ahead_cons]
      by_cases hps : ps = []
      · subst hps
        simp [ahead]
      · rw [ih hps, commaList_cons_of_ne hps]
        simp

lemma length_ahead_concat : (ahead (ps ++ [e])).length = (ahead ps).length + e.length + 1 := by
  rw [ahead, List.flatMap_append, List.length_append, ← ahead]
  simp
  omega

/-- The end of an element in its list. -/
lemma elementEnd_commaList (ps es : List Bytes) (he : 44 ∉ e) :
    elementEnd (commaList (ps ++ e :: es)) (ahead ps).length (commaList (ps ++ e :: es)).length =
      (ahead ps).length + e.length := by
  have hnone : e.findIdx (· == 44) = e.length := by
    refine List.findIdx_eq_length.mpr fun x hx => ?_
    rw [beq_eq_false_iff_ne]
    rintro rfl
    exact he hx
  rw [elementEnd, List.take_length, commaList_append ps (List.cons_ne_nil e es),
    List.drop_left]
  cases es with
  | nil => rw [commaList_singleton, hnone]
  | cons e' es =>
      rw [commaList_cons_cons, List.findIdx_append, hnone, if_neg (Nat.lt_irrefl _),
        List.findIdx_cons]
      simp

/-- The element at its place in the list. -/
lemma take_commaList (ps : List Bytes) :
    ((commaList (ps ++ e :: es)).drop (ahead ps).length).take e.length = e := by
  rw [commaList_append ps (List.cons_ne_nil e es), List.drop_left]
  cases es with
  | nil => rw [commaList_singleton, List.take_length]
  | cons e' es => rw [commaList_cons_cons, List.take_left]

/-! ## One pass -/

lemma cString_of_not_mem {text : Bytes} (h : 0 ∉ text) : cString text = text := by
  refine List.takeWhile_eq_self_iff.mpr fun x hx => bne_iff_ne.mpr ?_
  rintro rfl
  exact h hx

/-- The end of the scan. -/
lemma removeLoop_stop {member text : Bytes} (fuel : Nat) {start stop : Nat} (h : ¬ start < stop) :
    removeLoop member fuel text start stop = some text := by
  cases fuel with
  | zero => exact if_neg h
  | succ fuel =>
      rw [removeLoop]
      exact if_neg h

/-- A pass over the rest of a list in which the member may be the last element. -/
lemma removeLoop_foundLast (ps : List Bytes) (fuel : Nat) (hne : es ≠ []) (hcomma : ∀ e ∈ es, 44 ∉ e)
    (hlast : k ∉ es.dropLast) (hnamed : k = [] → [] ∉ es) (hfuel : (commaList es).length ≤ fuel) :
    ∃ text, removeLoop k fuel (commaList (ps ++ es)) (ahead ps).length (commaList (ps ++ es)).length =
        some text ∧
      if k ∈ es then ∃ behind, text = commaList (ps ++ es.dropLast) ++ 0 :: behind
      else text = commaList (ps ++ es) := by
  induction es generalizing ps fuel with
  | nil => exact absurd rfl hne
  | cons e es ih =>
      have hcommaE := hcomma e List.mem_cons_self
      have hlength : (commaList (ps ++ e :: es)).length =
          (ahead ps).length + (commaList (e :: es)).length := by
        rw [commaList_append ps (List.cons_ne_nil e es), List.length_append]
      by_cases hstop : (ahead ps).length < (commaList (ps ++ e :: es)).length
      swap
      · -- the list ends with an empty element, which is not looked at
        have hempty : commaList (e :: es) = [] := List.eq_nil_of_length_eq_zero (by omega)
        have hes : es = [] := by
          by_contra hes
          rw [commaList_cons_of_ne hes] at hempty
          exact absurd hempty (by simp)
        subst hes
        rw [commaList_singleton] at hempty
        subst hempty
        refine ⟨_, removeLoop_stop fuel hstop, ?_⟩
        rw [if_neg]
        intro hk
        exact hnamed (List.mem_singleton.mp hk) (List.mem_singleton.mpr rfl)
      · obtain ⟨fuel, rfl⟩ : ∃ n, fuel = n + 1 := Nat.exists_eq_succ_of_ne_zero (by omega)
        rw [removeLoop, if_pos hstop, elementEnd_commaList ps _ hcommaE]
        dsimp only
        rw [Nat.add_sub_cancel_left]
        cases es with
        | nil =>
            have hend : (commaList (ps ++ [e])).length = (ahead ps).length + e.length := by
              rw [hlength, commaList_singleton]
            by_cases hk : e = k
            · subst hk
              have hrest : ¬ 1 < if (ahead ps).length + e.length ≠ (ahead ps).length + e.length then
                  (ahead ps).length + e.length - ((ahead ps).length + e.length + 1) else 0 := by
                rw [if_neg fun h => h rfl]
                decide
              rw [if_pos ⟨rfl, take_commaList ps⟩, hend, if_neg hrest,
                removeLoop_stop fuel (by omega)]
              refine ⟨_, rfl, ?_⟩
              rw [if_pos (List.mem_singleton.mpr rfl)]
              have hpos : 0 < e.length := by omega
              by_cases hps : ps = []
              · subst hps
                obtain ⟨x, rest, rfl⟩ := List.exists_cons_of_length_pos hpos
                exact ⟨rest, by simp [ahead]⟩
              · refine ⟨e, ?_⟩
                rw [commaList_append ps (List.cons_ne_nil e []), ahead_eq hps, commaList_singleton,
                  List.length_append, List.length_singleton, if_pos (Nat.succ_pos _),
                  Nat.add_sub_cancel, List.append_assoc, List.set_append_right _ _ (Nat.le_refl _),
                  Nat.sub_self, List.dropLast_singleton, List.append_nil]
                rfl
            · rw [if_neg, removeLoop_stop fuel (by omega)]
              · refine ⟨_, rfl, ?_⟩
                rw [if_neg fun h => hk (List.mem_singleton.mp h).symm]
              · rintro ⟨hlen, htake⟩
                rw [← hlen, take_commaList] at htake
                exact hk htake
        | cons e' es =>
            rw [List.dropLast_cons_of_ne_nil (List.cons_ne_nil e' es)] at hlast
            have hk : e ≠ k := by
              rintro rfl
              exact hlast List.mem_cons_self
            have hcons : ps ++ e :: e' :: es = (ps ++ [e]) ++ e' :: es := by simp
            have hroom : (commaList (e' :: es)).length ≤ fuel := by
              rw [commaList_cons_cons] at hfuel
              simp only [List.length_append, List.length_cons] at hfuel
              omega
            obtain ⟨text, htext, hright⟩ := ih (ps ++ [e]) fuel
              (List.cons_ne_nil e' es) (fun x hx => hcomma x (List.mem_cons_of_mem e hx))
              (fun h => hlast (List.mem_cons_of_mem e h))
              (fun h hmem => hnamed h (List.mem_cons_of_mem e hmem)) hroom
            rw [length_ahead_concat, ← hcons] at htext
            rw [if_neg, htext]
            · refine ⟨text, rfl, ?_⟩
              rw [hcons, List.dropLast_cons_of_ne_nil (List.cons_ne_nil e' es)]
              have hmem : k ∈ e :: e' :: es ↔ k ∈ e' :: es := by
                rw [List.mem_cons]
                exact or_iff_right fun h => hk h.symm
              rw [List.append_assoc] at hright
              simp only [hmem]
              simpa using hright
            · rintro ⟨hlen, htake⟩
              rw [← hlen, take_commaList] at htake
              exact hk htake

lemma zero_not_mem_commaList (hzero : ∀ e ∈ es, 0 ∉ e) : 0 ∉ commaList es := by
  induction es with
  | nil => exact List.not_mem_nil
  | cons e es ih =>
      have hrest := ih fun x hx => hzero x (List.mem_cons_of_mem e hx)
      have hhead := hzero e List.mem_cons_self
      by_cases hes : es = []
      · subst hes
        rwa [commaList_singleton]
      · rw [commaList_cons_of_ne hes, List.mem_append, List.mem_cons]
        rintro (h | h | h)
        · exact hhead h
        · exact absurd h (by decide)
        · exact hrest h

/-- What is in a list at its end only is taken out of it. -/
lemma filter_foundLast (hlast : k ∉ es.dropLast) :
    es.filter (· ≠ k) = if k ∈ es then es.dropLast else es := by
  split
  · rename_i hmem
    have hne := List.ne_nil_of_mem hmem
    have hsplit := List.dropLast_append_getLast hne
    have hend : es.getLast hne = k := by
      rw [← hsplit, List.mem_append, List.mem_singleton] at hmem
      rcases hmem with h | h
      · exact absurd h hlast
      · exact h.symm
    have hkept : es.dropLast.filter (· ≠ k) = es.dropLast := by
      refine List.filter_eq_self.mpr fun e he => decide_eq_true ?_
      rintro rfl
      exact hlast he
    calc es.filter (· ≠ k)
        = (es.dropLast ++ [es.getLast hne]).filter (· ≠ k) := by rw [hsplit]
      _ = es.dropLast := by rw [List.filter_append, hkept, hend]; simp
  · rename_i hmem
    refine List.filter_eq_self.mpr fun e he => decide_eq_true ?_
    rintro rfl
    exact hmem he

/-- A pass that finds the member at the end, or does not find it. -/
lemma removeMember_foundLast (hne : es ≠ []) (hcomma : ∀ e ∈ es, 44 ∉ e)
    (hzero : ∀ e ∈ es, 0 ∉ e) (hlength : (commaList es).length ≤ maxListLength)
    (hlast : k ∉ es.dropLast) (hnamed : k = [] → [] ∉ es) :
    removeMember (commaList es) k = some (commaList (es.filter (· ≠ k))) := by
  obtain ⟨text, htext, hright⟩ := removeLoop_foundLast [] _ hne hcomma hlast hnamed
    (Nat.le_refl _)
  rw [removeMember, Nat.min_eq_left hlength, List.take_length, List.drop_length]
  change (removeLoop k (commaList es).length (commaList ([] ++ es)) (ahead []).length
    (commaList ([] ++ es)).length).map _ = _
  rw [htext, Option.map_some, List.append_nil, filter_foundLast hlast]
  split at hright
  · obtain ⟨behind, rfl⟩ := hright
    rename_i hmem
    rw [if_pos hmem]
    refine congrArg some (cString_append_zero ?_ behind)
    exact zero_not_mem_commaList fun e he => hzero e ((List.dropLast_subset es) he)
  · rename_i hmem
    rw [if_neg hmem, hright, List.nil_append, cString_of_not_mem (zero_not_mem_commaList hzero)]

/-! ## All passes -/

lemma removeMembersLoop_stop {leave list : Bytes} (fuel : Nat) {start stop : Nat}
    (h : ¬ start < stop) : removeMembersLoop leave fuel list start stop = some list := by
  cases fuel with
  | zero => exact if_neg h
  | succ fuel =>
      rw [removeMembersLoop]
      exact if_neg h

/-- Nothing can be taken out of an empty text. -/
lemma commaList_filter_eq_nil (h : commaList es = []) (p : Bytes → Bool) : commaList (es.filter p) = [] := by
  cases es with
  | nil => rfl
  | cons e es =>
      by_cases hes : es = []
      · subst hes
        rw [commaList_singleton] at h
        subst h
        rw [List.filter_cons]
        split
        · rfl
        · rfl
      · rw [commaList_cons_of_ne hes] at h
        exact absurd h (by simp)

lemma length_ahead_filter_le (es : List Bytes) (p : Bytes → Bool) :
    (ahead (es.filter p)).length ≤ (ahead es).length := by
  induction es with
  | nil => exact Nat.le_refl _
  | cons e es ih =>
      rw [List.filter_cons, ahead_cons, List.length_append, List.length_cons]
      split
      · rw [ahead_cons, List.length_append, List.length_cons]
        omega
      · omega

/-- A list without some of its elements is not longer. -/
lemma length_commaList_filter_le (es : List Bytes) (p : Bytes → Bool) :
    (commaList (es.filter p)).length ≤ (commaList es).length := by
  by_cases hkept : es.filter p = []
  · rw [hkept]
    exact Nat.zero_le _
  · have hes : es ≠ [] := by
      rintro rfl
      exact hkept rfl
    have hle := length_ahead_filter_le es p
    rw [ahead_eq hkept, ahead_eq hes, List.length_append, List.length_append] at hle
    exact Nat.le_of_add_le_add_right hle

/-- The passes for the rest of a leave list. -/
lemma removeMembersLoop_foundLast (fuel : Nat) (ts : List Bytes) (hms : ms ≠ [])
    (hcommaMs : ∀ m ∈ ms, 44 ∉ m) (hne : es ≠ []) (hcomma : ∀ e ∈ es, 44 ∉ e)
    (hzero : ∀ e ∈ es, 0 ∉ e) (hlength : (commaList es).length ≤ maxListLength)
    (hfound : FoundLast es ms) (hnamed : [] ∈ ms → [] ∉ es) (hfuel : (commaList ms).length ≤ fuel) :
    removeMembersLoop (commaList (ts ++ ms)) fuel (commaList es) (ahead ts).length
      (commaList (ts ++ ms)).length = some (commaList (es.filter (· ∉ ms))) := by
  induction ms generalizing ts fuel es with
  | nil => exact absurd rfl hms
  | cons m ms ih =>
      have hcommaM := hcommaMs m List.mem_cons_self
      have hleave : (commaList (ts ++ m :: ms)).length =
          (ahead ts).length + (commaList (m :: ms)).length := by
        rw [commaList_append ts (List.cons_ne_nil m ms), List.length_append]
      have hfilter : es.filter (· ∉ m :: ms) = (es.filter (· ≠ m)).filter (· ∉ ms) := by
        rw [List.filter_filter]
        refine List.filter_congr fun e _ => ?_
        simp [Bool.and_comm]
      by_cases hstop : (ahead ts).length < (commaList (ts ++ m :: ms)).length
      swap
      · have hempty : commaList (m :: ms) = [] := List.eq_nil_of_length_eq_zero (by omega)
        have hnil : ms = [] := by
          by_contra hms
          rw [commaList_cons_of_ne hms] at hempty
          exact absurd hempty (by simp)
        subst hnil
        rw [commaList_singleton] at hempty
        subst hempty
        rw [removeMembersLoop_stop fuel hstop]
        refine congrArg (fun es => some (commaList es)) (List.filter_eq_self.mpr fun e he => ?_).symm
        refine decide_eq_true fun hmem => ?_
        rw [List.mem_singleton.mp hmem] at he
        exact hnamed List.mem_cons_self he
      · obtain ⟨fuel, rfl⟩ : ∃ n, fuel = n + 1 := Nat.exists_eq_succ_of_ne_zero (by omega)
        rw [removeMembersLoop, if_pos hstop, elementEnd_commaList ts _ hcommaM]
        dsimp only
        rw [Nat.add_sub_cancel_left, take_commaList, removeMember_foundLast hne hcomma hzero hlength
          hfound.1 fun h => hnamed (h ▸ List.mem_cons_self), Option.bind_some, hfilter]
        by_cases hempty : commaList (es.filter (· ≠ m)) = []
        · rw [if_pos hempty, commaList_filter_eq_nil hempty, hempty]
        · rw [if_neg hempty]
          cases ms with
          | nil =>
              rw [hleave, commaList_singleton, removeMembersLoop_stop fuel (by omega)]
              simp
          | cons m' ms =>
              have hcons : ts ++ m :: m' :: ms = (ts ++ [m]) ++ m' :: ms := by simp
              have hsub : ∀ e ∈ es.filter (· ≠ m), e ∈ es := fun e he => List.mem_of_mem_filter he
              rw [hcons, Nat.add_assoc]
              have hstart : (ahead ts).length + (m.length + 1) = (ahead (ts ++ [m])).length := by
                rw [length_ahead_concat, Nat.add_assoc]
              rw [hstart]
              refine ih fuel (ts ++ [m]) (List.cons_ne_nil m' ms)
                (fun x hx => hcommaMs x (List.mem_cons_of_mem m hx)) ?_
                (fun e he => hcomma e (hsub e he)) (fun e he => hzero e (hsub e he))
                ((length_commaList_filter_le es _).trans hlength) hfound.2
                (fun hmem he => hnamed (List.mem_cons_of_mem m hmem) (hsub [] he)) ?_
              · rintro hnil
                rw [hnil] at hempty
                exact hempty rfl
              · rw [commaList_cons_cons] at hfuel
                simp only [List.length_append, List.length_cons] at hfuel
                omega

/-! ## What is found further ahead -/

/-- Where the comma is in a piece that has one. -/
lemma findIdx_comma {u : Bytes} (w : Bytes) (h : 44 ∈ u) : ∃ x y, u = x ++ 44 :: y ∧
    (u ++ w).findIdx (· == 44) = x.length := by
  obtain ⟨x, y, rfl, hx⟩ := List.eq_append_cons_of_mem h
  refine ⟨x, y, rfl, ?_⟩
  have hnone : x.findIdx (· == 44) = x.length := by
    refine List.findIdx_eq_length.mpr fun c hc => beq_eq_false_iff_ne.mpr ?_
    rintro rfl
    exact hx hc
  rw [List.append_assoc, List.findIdx_append, hnone, if_neg (Nat.lt_irrefl _), List.cons_append,
    List.findIdx_cons]
  simp

lemma findIdx_of_not_mem {u : Bytes} (h : 44 ∉ u) : u.findIdx (· == 44) = u.length := by
  refine List.findIdx_eq_length.mpr fun c hc => beq_eq_false_iff_ne.mpr ?_
  rintro rfl
  exact h hc

/-- What is behind a comma is moved to the place of what is ahead of it. -/
lemma moveText_ahead (p x y l w : Bytes) :
    moveText (p ++ (x ++ 44 :: y) ++ l ++ w) p.length (p.length + x.length + 1)
        (y.length + l.length) =
      p ++ y ++ l ++ (p ++ (x ++ 44 :: y) ++ l ++ w).drop (p.length + (y.length + l.length)) := by
  have hplace : p ++ (x ++ 44 :: y) ++ l ++ w = (p ++ (x ++ [44])) ++ (y ++ l ++ w) := by simp
  have hlength : (p ++ (x ++ [44])).length = p.length + x.length + 1 := by
    simp only [List.length_append, List.length_singleton]
    omega
  have htake : (p ++ (x ++ 44 :: y) ++ l ++ w).take p.length = p := by
    rw [List.append_assoc, List.append_assoc, List.take_left]
  have hmoved : ((p ++ (x ++ 44 :: y) ++ l ++ w).drop (p.length + x.length + 1)).take
      (y.length + l.length) = y ++ l := by
    rw [hplace, ← hlength, List.drop_left, ← List.length_append, List.take_left]
  rw [moveText, htake, hmoved, List.append_assoc p y l]

/-- A piece at the end of the text. -/
lemma not_member_at_end {l u w : Bytes} {start : Nat} (hsuffix : ¬ k <:+ l)
    (hle : u.length ≤ start) :
    ¬ (u.length + l.length - start = k.length ∧
      ((u ++ l ++ w).drop start).take k.length = k) := by
  rintro ⟨hlen, htake⟩
  obtain ⟨n, rfl⟩ := Nat.exists_eq_add_of_le hle
  rw [List.append_assoc, List.drop_append, List.drop_eq_nil_of_le hle, List.nil_append,
    Nat.add_sub_cancel_left, ← hlen] at htake
  have hn : u.length + l.length - (u.length + n) = (l.drop n).length := by
    rw [List.length_drop]
    omega
  refine hsuffix ?_
  by_cases hin : n ≤ l.length
  · rw [List.drop_append_of_le_length hin, hn, List.take_left] at htake
    rw [← htake]
    exact List.drop_suffix n l
  · have hk : k.length = 0 := by omega
    rw [List.eq_nil_of_length_eq_zero hk]
    exact List.nil_suffix

/-- A pass over a text at whose end there is an element that does not end with the member: no
    character of it is cut off. -/
lemma removeLoop_keeps {l : Bytes} (hcomma : 44 ∉ l) (htwo : 2 ≤ l.length) (hsuffix : ¬ k <:+ l)
    (fuel start : Nat) {u w text : Bytes}
    (hplace : u.length < start ∨ u = [] ∨ ∃ v, u = v ++ [44]) (hzero : 0 ∉ u ++ l ++ w)
    (h : removeLoop k fuel (u ++ l ++ w) start (u.length + l.length) = some text) :
    text.length = (u ++ l ++ w).length ∧ 0 ∉ text := by
  induction fuel generalizing u w start with
  | zero =>
      rw [removeLoop] at h
      split at h
      · cases h
      · cases h
        exact ⟨rfl, hzero⟩
  | succ fuel ih =>
      rw [removeLoop] at h
      split at h
      swap
      · cases h
        exact ⟨rfl, hzero⟩
      rename_i hstart
      have htake : (u ++ l ++ w).take (u.length + l.length) = u ++ l := by
        rw [← List.length_append, List.take_left]
      rw [elementEnd, htake] at h
      dsimp only at h
      by_cases hahead : start < u.length
      · -- the element is ahead of the last one
        have hend : ∃ v, u = v ++ [44] := by
          rcases hplace with hlt | hnil | hv
          · omega
          · rw [hnil] at hahead
            cases hahead
          · exact hv
        have hsplit : u = u.take start ++ u.drop start := (List.take_append_drop start u).symm
        have hmem : 44 ∈ u.drop start := by
          obtain ⟨v, rfl⟩ := hend
          rw [List.length_append, List.length_singleton] at hahead
          rw [List.drop_append_of_le_length (Nat.le_of_lt_succ hahead)]
          exact List.mem_append_right _ List.mem_cons_self
        obtain ⟨x, y, hxy, hidx⟩ := findIdx_comma l hmem
        obtain ⟨p, hp⟩ : ∃ p, p = u.take start := ⟨_, rfl⟩
        have hplen : p.length = start := by
          rw [hp, List.length_take, Nat.min_eq_left (Nat.le_of_lt hahead)]
        rw [List.drop_append_of_le_length (Nat.le_of_lt hahead), hidx] at h
        rw [← hp, hxy] at hsplit
        subst hplen
        rw [hsplit] at h hzero hend ⊢
        have hulen : (p ++ (x ++ 44 :: y)).length = p.length + x.length + 1 + y.length := by
          simp only [List.length_append, List.length_cons]
          omega
        have hbehind : ∀ q : Bytes, q ++ y = [] ∨ y = [] ∨ ∃ v, q ++ y = v ++ [44] := by
          intro q
          obtain ⟨v, hv⟩ := hend
          rcases List.eq_nil_or_concat' y with rfl | ⟨y', c, rfl⟩
          · exact .inr (.inl rfl)
          · have hsame : p ++ (x ++ 44 :: y') ++ [c] = v ++ [44] := by
              rw [← hv]
              simp
            have hc := List.singleton_inj.mp (List.append_inj' hsame rfl).2
            exact .inr (.inr ⟨q ++ y', by rw [hc, List.append_assoc]⟩)
        split at h
        · have hrest : (p ++ (x ++ 44 :: y)).length + l.length - (p.length + x.length + 1) =
              y.length + l.length := by omega
          have hstop : (p ++ (x ++ 44 :: y)).length + l.length - (p.length + x.length + 1 - p.length)
              = (p ++ y).length + l.length := by
            rw [hulen, List.length_append]
            omega
          have hne : (p ++ (x ++ 44 :: y)).length + l.length ≠ p.length + x.length := by omega
          have hmore : 1 < y.length + l.length := by omega
          rw [if_pos hne, hrest, if_pos hmore, moveText_ahead, hstop] at h
          have hsub : 0 ∉ p ++ y ++ l ++ (p ++ (x ++ 44 :: y) ++ l ++ w).drop
              (p.length + (y.length + l.length)) := by
            intro hmem0
            rcases List.mem_append.mp hmem0 with hmem0 | hmem0
            · refine hzero (List.mem_append_left w ?_)
              simp only [List.mem_append, List.mem_cons] at hmem0 ⊢
              tauto
            · exact hzero (List.mem_of_mem_drop hmem0)
          have hnext : (p ++ y).length < p.length + x.length + 1 ∨ p ++ y = [] ∨
              ∃ v, p ++ y = v ++ [44] := by
            rcases hbehind p with hnil | hnil | hv
            · exact .inr (.inl hnil)
            · subst hnil
              left
              rw [List.append_nil]
              omega
            · exact .inr (.inr hv)
          obtain ⟨hlen, hright⟩ := ih _ hnext hsub h
          refine ⟨hlen.trans ?_, hright⟩
          simp only [List.length_append, List.length_drop, List.length_cons]
          omega
        · exact ih _ (.inr (.inr hend)) hzero h
      · -- the piece is the last element, or the end of it
        have hle : u.length ≤ start := Nat.le_of_not_lt hahead
        have hnone : 44 ∉ (u ++ l).drop start := by
          rw [List.drop_append, List.drop_eq_nil_of_le hle, List.nil_append]
          exact fun hmem => hcomma (List.mem_of_mem_drop hmem)
        rw [findIdx_of_not_mem hnone, List.length_drop, List.length_append,
          Nat.add_sub_cancel' (Nat.le_of_lt hstart), if_neg (not_member_at_end hsuffix hle),
          removeLoop_stop fuel (by omega)] at h
        cases h
        exact ⟨rfl, hzero⟩

/-! ## When the list is right -/

lemma comma_not_mem_splitOn {text : Bytes} : ∀ e ∈ text.splitOn 44, 44 ∉ e :=
  fun _ he hc => (mem_splitOn he hc).1 rfl

lemma zero_not_mem_splitOn {text : Bytes} (h : 0 ∉ text) : ∀ e ∈ text.splitOn 44, 0 ∉ e :=
  fun _ he hc => h (mem_splitOn he hc).2

lemma commaList_splitOn (text : Bytes) : commaList (text.splitOn 44) = text := List.intercalate_splitOn 44

/-- Taking out an element makes a list shorter. -/
lemma length_ahead_filter_lt (hmem : k ∈ es) :
    (ahead (es.filter (· ≠ k))).length < (ahead es).length := by
  induction es with
  | nil => cases hmem
  | cons e es ih =>
      have hle := length_ahead_filter_le es (· ≠ k)
      rw [List.filter_cons, ahead_cons, List.length_append, List.length_cons]
      split
      · rename_i hne
        rcases List.mem_cons.mp hmem with rfl | hmem
        · simp at hne
        · have hlt := ih hmem
          rw [ahead_cons, List.length_append, List.length_cons]
          omega
      · omega

lemma length_commaList_filter_lt (hmem : k ∈ es) (hpos : 0 < (commaList es).length) :
    (commaList (es.filter (· ≠ k))).length < (commaList es).length := by
  by_cases hkept : es.filter (· ≠ k) = []
  · rw [hkept]
    exact hpos
  · have hlt := length_ahead_filter_lt hmem
    rw [ahead_eq hkept, ahead_eq (List.ne_nil_of_mem hmem), List.length_append,
      List.length_append] at hlt
    exact Nat.lt_of_add_lt_add_right hlt

/-- What the passes leave behind where they find what they look for at the end only. -/
lemma removeFromList_clear {list leaveList : Bytes} (hlist : 0 ∉ list)
    (hclear : RemovesClear list leaveList) :
    pbstrRemoveFromList list leaveList = some (withoutMembers list leaveList) := by
  rw [pbstrRemoveFromList, withoutMembers, Nat.min_eq_left hclear.leaveList]
  have hfound := hclear.foundLast
  have hnamed := hclear.named
  rw [leaveElements] at hfound hnamed ⊢
  by_cases hleave : leaveList = []
  · subst hleave
    rw [removeMembersLoop_stop _ (by simp)]
    simp [commaList_splitOn]
  · rw [if_neg hleave] at hfound hnamed ⊢
    have hright := removeMembersLoop_foundLast leaveList.length []
      (List.splitOn_ne_nil 44 leaveList) comma_not_mem_splitOn (List.splitOn_ne_nil 44 list)
      comma_not_mem_splitOn (zero_not_mem_splitOn hlist)
      (by rw [commaList_splitOn]; exact hclear.list) hfound hnamed
      (by rw [commaList_splitOn])
    rw [List.nil_append, commaList_splitOn, commaList_splitOn] at hright
    exact hright

/-- A pass for one element is all there is. -/
lemma removeFromList_one {list leave : Bytes} (hone : leave.splitOn 44 = [leave])
    (hne : leave ≠ []) (hlength : leave.length ≤ maxListLength) :
    pbstrRemoveFromList list leave = removeMember list leave := by
  have hcomma : 44 ∉ leave := comma_not_mem_splitOn leave (hone ▸ List.mem_singleton.mpr rfl)
  have hend : elementEnd leave 0 leave.length = leave.length := by
    have hshape := elementEnd_commaList [] [] hcomma
    simpa [ahead] using hshape
  obtain ⟨n, hn⟩ := Nat.exists_eq_succ_of_ne_zero fun h => hne (List.eq_nil_of_length_eq_zero h)
  rw [pbstrRemoveFromList, Nat.min_eq_left hlength]
  have hloop : removeMembersLoop leave (n + 1) list 0 leave.length = removeMember list leave := by
    rw [removeMembersLoop, if_pos (by omega), hend]
    dsimp only
    rw [Nat.sub_zero, List.drop_zero, List.take_length]
    cases removeMember list leave with
    | none => rfl
    | some list' =>
        rw [Option.bind_some, removeMembersLoop_stop n (by omega), ite_self]
  rw [← hloop, hn]

end PubNub
