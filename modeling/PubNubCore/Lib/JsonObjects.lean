import PubNubCore.Lib.JsonText

/-!
# Writing JSON texts

What a writer of JSON says of its output: a member with a string as its value, the members of an
object one behind the other, and the object around them.  A well formed text has no zero in it, so
that it can be stored as a string.
-/

namespace PubNub

namespace JsonText

variable {objects arrays : Nat} {part : Part} {t : List UInt8} {mem : Member} {mems : List Member}

/-! ## Strings -/

/-- A text that is legal inside a JSON string. -/
structure JsonBody where
  text : List UInt8
  isStringBody : IsStringBody text

/-- Characters that stand for themselves. -/
def isPlain (c : UInt8) : Bool := decide (32 ≤ c) && c != 34 && c != 92

lemma isStringBody_of_plain {s : List UInt8} (h : s.all isPlain = true) : IsStringBody s := by
  induction s with
  | nil => exact .nil
  | cons c s ih =>
      rw [List.all_cons, Bool.and_eq_true] at h
      simp only [isPlain, Bool.and_eq_true, decide_eq_true_eq, bne_iff_ne] at h
      exact .plain h.1.1.1 h.1.1.2 h.1.2 (ih h.2)

/-! ## No byte of a text is a zero -/

lemma zero_not_mem_stringBody (h : IsStringBody t) : 0 ∉ t := by
  induction h with
  | nil => exact List.not_mem_nil
  | plain control quote backslash rest ih =>
      rw [List.mem_cons, not_or]
      refine ⟨?_, ih⟩
      rintro rfl
      exact absurd control (by decide)
  | escape known rest ih =>
      rw [List.mem_cons, List.mem_cons, not_or, not_or]
      refine ⟨by decide, ?_, ih⟩
      rintro rfl
      simp at known
  | unicode hex rest ih =>
      simp only [List.forall_mem_cons] at hex
      obtain ⟨h₁, h₂, h₃, h₄, -⟩ := hex
      have hnul {c : UInt8} (hc : IsHexDigit c) : 0 ≠ c := by
        rintro rfl
        rcases hc with ⟨hc, -⟩ | ⟨hc, -⟩ | ⟨hc, -⟩
        all_goals exact absurd hc (by decide)
      simp [hnul h₁, hnul h₂, hnul h₃, hnul h₄, ih]

lemma zero_not_mem_ws (h : IsWs t) : 0 ∉ t := by
  intro hzero
  obtain hc | hc | hc | hc := h 0 hzero
  all_goals cases hc

lemma zero_not_mem_of_isJson (h : IsJson part objects arrays t) : 0 ∉ t := by
  induction h with
  | scalar h =>
      intro hzero
      exact absurd (h.isScalarByte 0 hzero).1 (by decide)
  | string h => simp [zero_not_mem_stringBody h]
  | noElements h => simp [zero_not_mem_ws h]
  | array h ih => simp [ih]
  | noMembers h => simp [zero_not_mem_ws h]
  | object h ih => simp [ih]
  | element before value behind ih => simp [zero_not_mem_ws before, ih, zero_not_mem_ws behind]
  | elements first rest ihFirst ihRest => simp [ihFirst, ihRest]
  | member before key colon behindColon value behind ih =>
      simp [zero_not_mem_ws before, zero_not_mem_stringBody key, zero_not_mem_ws colon,
        zero_not_mem_ws behindColon, ih, zero_not_mem_ws behind]
  | members first rest ihFirst ihRest => simp [ihFirst, ihRest]

lemma zero_not_mem_of_isJsonText (h : IsJsonText t) : 0 ∉ t := by
  obtain ⟨objects, arrays, before, value, behind, hbefore, hvalue, hbehind, rfl⟩ := h
  simp [zero_not_mem_ws hbefore, zero_not_mem_of_isJson hvalue, zero_not_mem_ws hbehind]

/-! ## Members and objects -/

lemma isWs_nil : IsWs [] := fun _ hc => absurd hc List.not_mem_nil

/-- A member whose value is a string. -/
def stringMember (key : JsonBody) (v : JsonBody) : Member where
  before := []
  key := key.text
  beforeColon := []
  behindColon := []
  value := 34 :: (v.text ++ [34])
  behind := []
  objects := 0
  arrays := 0
  isWs_before := isWs_nil
  isStringBody_key := key.isStringBody
  isWs_beforeColon := isWs_nil
  isWs_behindColon := isWs_nil
  isJson_value := .string v.isStringBody
  isWs_behind := isWs_nil

lemma length_stringMember (key v : JsonBody) :
    (stringMember key v).text.length = v.text.length + (key.text.length + 5) := by
  simp only [Member.text, Member.front, stringMember, List.length_append, List.length_cons,
    List.length_nil]
  omega

lemma text_stringMember (key v : JsonBody) : (stringMember key v).text =
    34 :: (key.text ++ 34 :: 58 :: 34 :: (v.text ++ [34])) := by
  simp [Member.text, Member.front, stringMember]

def objectText (mems : List Member) : List UInt8 := 123 :: (membersText mems ++ [125])

lemma membersText_concat (mems : List Member) (mem : Member) : membersText (mems ++ [mem]) =
    membersText mems ++ (if mems = [] then [] else [44]) ++ mem.text := by
  induction mems with
  | nil => rfl
  | cons first mems ih =>
      rw [if_neg (List.cons_ne_nil _ _)]
      cases mems with
      | nil =>
          change first.text ++ 44 :: mem.text = _
          rw [List.append_assoc]
          rfl
      | cons second mems =>
          rw [if_neg (List.cons_ne_nil _ _)] at ih
          change first.text ++ 44 :: membersText (second :: mems ++ [mem]) =
            first.text ++ 44 :: membersText (second :: mems) ++ [44] ++ mem.text
          rw [ih]
          simp only [List.append_assoc, List.cons_append]

lemma isJson_memberText (mem : Member) : IsJson .members mem.objects mem.arrays mem.text := by
  have hmember := IsJson.member mem.isWs_before mem.isStringBody_key mem.isWs_beforeColon
    mem.isWs_behindColon mem.isJson_value mem.isWs_behind
  have htext : mem.text = mem.before ++ 34 :: (mem.key ++ 34 :: (mem.beforeColon ++ 58 ::
      (mem.behindColon ++ (mem.value ++ mem.behind)))) := by
    rw [Member.text, Member.front]
    simp only [List.append_assoc, List.cons_append]
  rw [htext]
  exact hmember

lemma isJson_membersText (hne : mems ≠ []) : ∃ x y, IsJson .members x y (membersText mems) := by
  induction mems with
  | nil => exact absurd rfl hne
  | cons mem mems ih =>
      cases mems with
      | nil => exact ⟨_, _, isJson_memberText mem⟩
      | cons next mems =>
          obtain ⟨x, y, hrest⟩ := ih (List.cons_ne_nil _ _)
          exact ⟨_, _, (isJson_memberText mem).members hrest⟩

/-- An object is well formed. -/
lemma isJson_objectText (mems : List Member) : ∃ x y, IsJson .value x y (objectText mems) := by
  by_cases hne : mems = []
  · subst hne
    exact ⟨1, 0, .noMembers isWs_nil⟩
  · obtain ⟨x, y, hmembers⟩ := isJson_membersText hne
    exact ⟨x + 1, y, .object hmembers⟩

lemma length_membersText (hne : mems ≠ []) : (membersText mems).length + 1 =
    (mems.map fun mem => mem.text.length).sum + mems.length := by
  induction mems with
  | nil => exact absurd rfl hne
  | cons mem mems ih =>
      cases mems with
      | nil => rfl
      | cons next mems =>
          have hnext := ih (List.cons_ne_nil _ _)
          change (mem.text ++ 44 :: membersText (next :: mems)).length + 1 = _
          rw [List.length_append, List.length_cons, List.map_cons, List.sum_cons, List.length_cons]
          omega

lemma zero_not_mem_objectText (mems : List Member) : 0 ∉ objectText mems := by
  obtain ⟨x, y, h⟩ := isJson_objectText mems
  exact zero_not_mem_of_isJson h

end JsonText

end PubNub
