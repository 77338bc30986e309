import PubNubCore.Api.Functions
import PubNubCore.Lib.JsonObjects
import PubNubCore.Lib.Printing

/-!
# The body of an action

`pbcc_form_the_action_object_str` of `core/pbcc_actions_api.c` puts a type, a value and the user's id
into an object.  Type and value come with their quotes, and only the first and the last character are
looked at, the last one not behind the 15th of a type and the 30000th of a value.  The same lengths
are used to ask for room; what is printed has no limit.
-/

namespace PubNub

open JsonText

/-! ## The data -/

/-- `enum pubnub_action_type`. -/
inductive PubnubActionType
  | reaction | receipt | custom
  deriving DecidableEq

def maxActionTypeLength : Nat := 15

/-- What `pbcc_form_the_action_object_str` returns, and `obj_buffer` where `*val` points to it. -/
structure FormedAction (n : Nat) where
  result : PubnubRes
  val : Option (CharArray n)

/-! ## Forming the object -/

/-- The first character and the last one of those that are looked at are quotes. -/
def isQuoted (s : Bytes) (length : Nat) : Bool :=
  s.head? == some 34 && s[min s.length length - 1]? == some 34

/-- What is printed. -/
def actionText (userId actionType val : Bytes) : Bytes :=
  123 :: ascii "\"type\":" ++ actionType ++ ascii ",\"value\":" ++ val ++
    ascii ",\"user_id\":\"" ++ userId ++ ascii "\"" ++ [125]

/-- The literal whose `sizeof` is taken. -/
def actionLiteral : Bytes := 123 :: ascii "\"type\":\"\",\"value\":,\"user_id\":\"\"" ++ [125]

/-- `required_buffer_size`. -/
def requiredBufferSize (userId actionType val : Bytes) : Nat :=
  actionLiteral.length + 1 + min actionType.length maxActionTypeLength +
    min val.length pubnubMaxObjectLength + userId.length

variable {n : Nat}

/-- `none` where `snprintf` cannot count what it prints. -/
def pbccFormTheActionObjectStr (userId : CText) (objBuffer : CharArray n) (actionType val : CText) :
    Option (FormedAction n) :=
  if userId.text.length = 0 then some ⟨.invalidParameters, none⟩
  else if !isQuoted val.text pubnubMaxObjectLength then some ⟨.invalidParameters, none⟩
  else if !isQuoted actionType.text maxActionTypeLength then some ⟨.invalidParameters, none⟩
  else if n < requiredBufferSize userId.text actionType.text val.text then
    some ⟨.txBuffTooSmall, none⟩
  else do
    let text := actionText userId.text actionType.text val.text
    let _ ← asInt text.length
    let b ← objBuffer.snprintf 0 n text
    some ⟨.ok, some b⟩

def PubnubActionType.typeLiteral : PubnubActionType → CText
  | .reaction => ⟨ascii "\"reaction\"", by decide⟩
  | .receipt => ⟨ascii "\"receipt\"", by decide⟩
  | .custom => ⟨ascii "\"custom\"", by decide⟩

/-- `none` for a number that is not one of the enumeration. -/
def pbccFormTheActionObject (userId : CText) (objBuffer : CharArray n)
    (actype : Option PubnubActionType) (val : CText) : Option (FormedAction n) :=
  match actype with
  | some type => pbccFormTheActionObjectStr userId objBuffer type.typeLiteral val
  | none => some ⟨.invalidParameters, none⟩

/-! ## What is asked of it -/

/-- A text is one JSON string. -/
def IsJsonString (s : Bytes) : Prop := ∃ body : JsonBody, s = 34 :: (body.text ++ [34])

/-- The whole object is in the buffer; type and value are a string each, so that it is the object of
    these three members for every user id that is legal inside a string. -/
structure StoresAction (userId actionType val : CText) (b : CharArray n) : Prop where
  whole : b.string = some (actionText userId.text actionType.text val.text)
  isJsonString_type : IsJsonString actionType.text
  isJsonString_val : IsJsonString val.text
  object : ∀ u : JsonBody, u.text = userId.text → ∃ t v : JsonBody,
    actionType.text = 34 :: (t.text ++ [34]) ∧ val.text = 34 :: (v.text ++ [34]) ∧
    actionText userId.text actionType.text val.text = objectText [
      stringMember ⟨ascii "type", isStringBody_of_plain (by decide)⟩ t,
      stringMember ⟨ascii "value", isStringBody_of_plain (by decide)⟩ v,
      stringMember ⟨ascii "user_id", isStringBody_of_plain (by decide)⟩ u]

/-- The object is stored, or there is an error and `*val` is what it was. -/
def FormsAction (userId actionType val : CText) (outcome : Option (FormedAction n)) : Prop :=
  ∃ formed, outcome = some formed ∧
    (formed.result ≠ .ok ∧ formed.val = none ∨
      formed.result = .ok ∧ ∃ b, formed.val = some b ∧ StoresAction userId actionType val b)

/-- The checks that are made. -/
structure ActionChecked (n : Nat) (userId actionType val : CText) : Prop where
  userId_ne_nil : userId.text ≠ []
  isQuoted_val : isQuoted val.text pubnubMaxObjectLength = true
  isQuoted_type : isQuoted actionType.text maxActionTypeLength = true
  room : requiredBufferSize userId.text actionType.text val.text ≤ n

variable {userId actionType val : CText} {objBuffer : CharArray n}

/-! ## One call -/

/-- Without one of the checks there is an error. -/
lemma formed_of_not_checked (h : ¬ ActionChecked n userId actionType val) :
    ∃ result, result ≠ .ok ∧
      pbccFormTheActionObjectStr userId objBuffer actionType val = some ⟨result, none⟩ := by
  rw [pbccFormTheActionObjectStr]
  by_cases huser : userId.text.length = 0
  · exact ⟨.invalidParameters, by decide, if_pos huser⟩
  rw [if_neg huser]
  by_cases hval : isQuoted val.text pubnubMaxObjectLength = true
  swap
  · exact ⟨.invalidParameters, by decide, if_pos (by simpa using hval)⟩
  rw [hval, Bool.not_true, if_neg Bool.false_ne_true]
  by_cases htype : isQuoted actionType.text maxActionTypeLength = true
  swap
  · exact ⟨.invalidParameters, by decide, if_pos (by simpa using htype)⟩
  rw [htype, Bool.not_true, if_neg Bool.false_ne_true]
  by_cases hroom : n < requiredBufferSize userId.text actionType.text val.text
  · exact ⟨.txBuffTooSmall, by decide, if_pos hroom⟩
  · refine absurd ⟨?_, hval, htype, not_lt.mp hroom⟩ h
    rintro hnil
    exact huser (congrArg List.length hnil)

/-- With all of them the object is printed. -/
lemma formed_of_checked (h : ActionChecked n userId actionType val) :
    pbccFormTheActionObjectStr userId objBuffer actionType val =
      (asInt (actionText userId.text actionType.text val.text).length).bind fun _ =>
        (objBuffer.snprintf 0 n (actionText userId.text actionType.text val.text)).bind fun b =>
          some ⟨.ok, some b⟩ := by
  have huser : ¬ userId.text.length = 0 := fun hzero =>
    h.userId_ne_nil (List.length_eq_zero_iff.mp hzero)
  rw [pbccFormTheActionObjectStr, if_neg huser, h.isQuoted_val, h.isQuoted_type, Bool.not_true,
    if_neg Bool.false_ne_true, if_neg Bool.false_ne_true, if_neg (not_lt.mpr h.room)]
  rfl

lemma zero_not_mem_actionText (userId actionType val : CText) :
    0 ∉ actionText userId.text actionType.text val.text := by
  have htexts : 0 ∉ ascii "\"type\":" ∧ 0 ∉ ascii ",\"value\":" ∧ 0 ∉ ascii ",\"user_id\":\"" ∧
      0 ∉ ascii "\"" := by decide
  obtain ⟨htype, hvalue, huser, hquote⟩ := htexts
  simp [actionText, userId.zero_not_mem, actionType.zero_not_mem, val.zero_not_mem, htype, hvalue,
    huser, hquote]

/-- Strings for type and value are members of an object. -/
lemma actionText_eq {u t v : JsonBody} (htype : actionType.text = 34 :: (t.text ++ [34]))
    (hval : val.text = 34 :: (v.text ++ [34])) (huser : u.text = userId.text) :
    actionText userId.text actionType.text val.text = objectText [
      stringMember ⟨ascii "type", isStringBody_of_plain (by decide)⟩ t,
      stringMember ⟨ascii "value", isStringBody_of_plain (by decide)⟩ v,
      stringMember ⟨ascii "user_id", isStringBody_of_plain (by decide)⟩ u] := by
  simp only [objectText, membersText, text_stringMember, huser]
  rw [actionText, htype, hval]
  have hkeys : ascii "\"type\":" = 34 :: (ascii "type" ++ [34, 58]) ∧
      ascii ",\"value\":" = 44 :: 34 :: (ascii "value" ++ [34, 58]) ∧
      ascii ",\"user_id\":\"" = 44 :: 34 :: (ascii "user_id" ++ [34, 58, 34]) ∧
      ascii "\"" = [34] := by decide
  obtain ⟨hone, htwo, hthree, hfour⟩ := hkeys
  rw [hone, htwo, hthree, hfour]
  simp

lemma storesAction_of_whole {b : CharArray n}
    (hwhole : b.string = some (actionText userId.text actionType.text val.text))
    (htype : IsJsonString actionType.text) (hval : IsJsonString val.text) :
    StoresAction userId actionType val b := by
  refine ⟨hwhole, htype, hval, ?_⟩
  obtain ⟨t, ht⟩ := htype
  obtain ⟨v, hv⟩ := hval
  intro u hu
  exact ⟨t, v, ht, hv, actionText_eq ht hv hu⟩

/-- The object is formed if and only if what has passed the checks are strings, and there is room
    for them. -/
lemma formsAction_str : FormsAction userId actionType val
      (pbccFormTheActionObjectStr userId objBuffer actionType val) ↔
    (ActionChecked n userId actionType val → IsJsonString actionType.text ∧ IsJsonString val.text ∧
      (actionText userId.text actionType.text val.text).length < min n (2 ^ 31)) := by
  constructor
  · rintro ⟨formed, houtcome, hformed⟩ hchecked
    rw [formed_of_checked hchecked, Option.bind_eq_some_iff] at houtcome
    obtain ⟨printed, hprinted, houtcome⟩ := houtcome
    obtain ⟨b, -, hb⟩ := Option.bind_eq_some_iff.mp houtcome
    cases hb
    rcases hformed with ⟨hresult, -⟩ | ⟨-, b', hb', hstores⟩
    · exact absurd rfl hresult
    · cases hb'
      rw [asInt, Option.ite_none_right_eq_some] at hprinted
      have hlength := CharArray.length_string hstores.whole
      exact ⟨hstores.isJsonString_type, hstores.isJsonString_val, lt_min hlength hprinted.1⟩
  · intro h
    by_cases hchecked : ActionChecked n userId actionType val
    · obtain ⟨htype, hval, hlt⟩ := h hchecked
      obtain ⟨hroom, hint⟩ := lt_min_iff.mp hlt
      obtain ⟨b, hb, hstring⟩ := objBuffer.exists_snprintf_zero hroom
        (zero_not_mem_actionText userId actionType val)
      refine ⟨⟨.ok, some b⟩, ?_, .inr ⟨rfl, b, rfl, storesAction_of_whole hstring htype hval⟩⟩
      rw [formed_of_checked hchecked, asInt, if_pos hint, Option.bind_some, hb, Option.bind_some]
    · obtain ⟨result, hresult, houtcome⟩ := formed_of_not_checked hchecked
      exact ⟨⟨result, none⟩, houtcome, .inl ⟨hresult, rfl⟩⟩

lemma PubnubActionType.isJsonString (actype : PubnubActionType) :
    IsJsonString actype.typeLiteral.text := by
  cases actype with
  | reaction => exact ⟨⟨ascii "reaction", isStringBody_of_plain (by decide)⟩, by decide⟩
  | receipt => exact ⟨⟨ascii "receipt", isStringBody_of_plain (by decide)⟩, by decide⟩
  | custom => exact ⟨⟨ascii "custom", isStringBody_of_plain (by decide)⟩, by decide⟩

/-- **Objects of actions.**  With the checks passed, the object is stored whole if and only if type and
    value are one string each and the printed text fits; the types that are known by number always are
    strings. -/
theorem action_object_right (userId actionType val : CText) (actype : PubnubActionType)
    (objBuffer : CharArray n) :
    (FormsAction userId actionType val
        (pbccFormTheActionObjectStr userId objBuffer actionType val) ↔
      (ActionChecked n userId actionType val →
        IsJsonString actionType.text ∧ IsJsonString val.text ∧
        (actionText userId.text actionType.text val.text).length < min n (2 ^ 31))) ∧
    (FormsAction userId actype.typeLiteral val
        (pbccFormTheActionObject userId objBuffer (some actype) val) ↔
      (ActionChecked n userId actype.typeLiteral val → IsJsonString val.text ∧
        (actionText userId.text actype.typeLiteral.text val.text).length < min n (2 ^ 31))) := by
  refine ⟨formsAction_str, ?_⟩
  rw [pbccFormTheActionObject, formsAction_str]
  constructor
  · intro h hchecked
    exact (h hchecked).2
  · intro h hchecked
    exact ⟨actype.isJsonString, h hchecked⟩

/-- A quote alone begins and ends with a quote. -/
theorem action_object_not_always_right : ¬ ∀ (n : Nat) (userId actionType val : CText)
    (objBuffer : CharArray n), FormsAction userId actionType val
      (pbccFormTheActionObjectStr userId objBuffer actionType val) := by
  intro h
  have hall := formsAction_str.mp (h 64 ⟨ascii "u", by decide⟩ PubnubActionType.reaction.typeLiteral
    ⟨[34], by decide⟩ (CharArray.blank 64))
  obtain ⟨-, ⟨body, hbody⟩, -⟩ := hall ⟨by decide, by decide, by decide, by decide⟩
  have hlength := congrArg List.length hbody
  simp at hlength

end PubNub
