import PubNubCore.Core.Types
import PubNubCore.Lib.JsonObjects
import PubNubCore.Lib.Printing

/-!
# The bodies of metadata requests

`pubnub_set_uuidmetadata_ex` and `pubnub_set_channelmetadata_ex` of `core/pubnub_objects_api.c` print
the fields that are given into a buffer whose size they compute first.  `obj_len - offset` is a
`size_t`, and wraps where the offset is behind the buffer.

`object_printed` says that the size is right for every subset of the fields but the empty one, for
which no byte is allocated and the opening brace is counted nevertheless.
-/

namespace PubNub

open JsonText

/-! ## The data -/

def plainBody (s : String) (h : (ascii s).all isPlain = true) : JsonBody :=
  ⟨ascii s, isStringBody_of_plain h⟩

/-- A JSON value, with whitespace around it. -/
structure JsonValue where
  before : Bytes
  value : Bytes
  behind : Bytes
  objects : Nat
  arrays : Nat
  isWs_before : IsWs before
  isJson : IsJson .value objects arrays value
  isWs_behind : IsWs behind

def JsonValue.text (v : JsonValue) : Bytes := v.before ++ (v.value ++ v.behind)

/-- `struct pubnub_uuid_metadata`, `none` for `NULL`. -/
structure UuidMetadata where
  custom : Option JsonValue := none
  email : Option JsonBody := none
  name : Option JsonBody := none
  externalId : Option JsonBody := none
  profileUrl : Option JsonBody := none
  status : Option JsonBody := none
  type : Option JsonBody := none

/-- `struct pubnub_channel_metadata`. -/
structure ChannelMetadata where
  custom : Option JsonValue := none
  description : Option JsonBody := none
  name : Option JsonBody := none
  status : Option JsonBody := none
  type : Option JsonBody := none

/-- A field that is printed between quotes, and what it adds to the length of its value. -/
structure MetadataField where
  key : JsonBody
  keySize : Nat
  value : Option JsonBody

def UuidMetadata.fields (d : UuidMetadata) : List MetadataField :=
  [⟨plainBody "email" (by decide), 10, d.email⟩, ⟨plainBody "name" (by decide), 9, d.name⟩,
    ⟨plainBody "externalId" (by decide), 15, d.externalId⟩,
    ⟨plainBody "profileUrl" (by decide), 15, d.profileUrl⟩,
    ⟨plainBody "status" (by decide), 11, d.status⟩, ⟨plainBody "type" (by decide), 9, d.type⟩]

def ChannelMetadata.fields (d : ChannelMetadata) : List MetadataField :=
  [⟨plainBody "description" (by decide), 16, d.description⟩, ⟨plainBody "name" (by decide), 9, d.name⟩,
    ⟨plainBody "status" (by decide), 11, d.status⟩, ⟨plainBody "type" (by decide), 9, d.type⟩]

/-! ## Printing -/

/-- A `snprintf` with its text, which depends on the offset; the size is `obj_len` or
    `obj_len - offset`. -/
structure MetadataPrint where
  whole : Bool
  text : Nat → Bytes

/-- `"%s\"key\":\"%s\""`. -/
def MetadataField.print (f : MetadataField) (v : JsonBody) : MetadataPrint where
  whole := false
  text offset := (if 1 < offset then [44] else []) ++
    34 :: (f.key.text ++ 34 :: 58 :: 34 :: (v.text ++ [34]))

def MetadataField.prints (f : MetadataField) : List MetadataPrint := f.value.toList.map f.print

/-- `"\"custom\":%s"`. -/
def printCustom (whole : Bool) (v : JsonValue) : MetadataPrint :=
  ⟨whole, fun _ => ascii "\"custom\":" ++ v.text⟩

/-- What is printed ahead of the closing brace. -/
def metadataPrints (whole : Bool) (custom : Option JsonValue) (fields : List MetadataField) :
    List MetadataPrint :=
  ⟨true, fun _ => [123]⟩ :: (custom.toList.map (printCustom whole) ++
    fields.flatMap MetadataField.prints)

/-- `obj_len`. -/
def metadataSize (spare : Nat) (custom : Option JsonValue) (fields : List MetadataField) : Nat :=
  let size := (custom.map fun v => v.text.length + 9).getD 0 +
    (fields.map fun f => (f.value.map fun v => v.text.length + f.keySize).getD 0).sum
  if 0 < size then size + spare else 0

section Print

variable {n : Nat}

/-- `obj_len - offset`. -/
def remainingSize (n offset : Nat) : Nat := (2 ^ 64 + n - offset) % 2 ^ 64

/-- `offset += snprintf(obj_buffer + offset, ...)`. -/
def MetadataPrint.run (st : CharArray n × Nat) (p : MetadataPrint) : Option (CharArray n × Nat) := do
  let a ← st.1.snprintf st.2 (if p.whole then n else remainingSize n st.2) (p.text st.2)
  let printed ← asInt (p.text st.2).length
  let offset ← asInt (st.2 + printed)
  some (a, offset)

/-- The `snprintf` for the closing brace. -/
def printEnd : MetadataPrint := ⟨false, fun _ => [125]⟩

end Print

def UuidMetadata.size (d : UuidMetadata) : Nat := metadataSize 9 d.custom d.fields

def ChannelMetadata.size (d : ChannelMetadata) : Nat := metadataSize 7 d.custom d.fields

def UuidMetadata.prints (d : UuidMetadata) : List MetadataPrint :=
  metadataPrints false d.custom d.fields

def ChannelMetadata.prints (d : ChannelMetadata) : List MetadataPrint :=
  metadataPrints true d.custom d.fields

/-- The buffer that `pubnub_set_uuidmetadata_ex` hands on, from what `malloc` returns; `none` where
    something is written outside of it, or an `int` cannot hold the offset. -/
def pubnubSetUuidmetadataEx (d : UuidMetadata) (a : CharArray d.size) : Option (CharArray d.size) := do
  let st ← d.prints.foldlM MetadataPrint.run (a, 0)
  st.1.snprintf st.2 (remainingSize d.size st.2) [125]

/-- The buffer that `pubnub_set_channelmetadata_ex` hands on. -/
def pubnubSetChannelmetadataEx (d : ChannelMetadata) (a : CharArray d.size) :
    Option (CharArray d.size) := do
  let st ← d.prints.foldlM MetadataPrint.run (a, 0)
  let st ← printEnd.run st
  some st.1

/-! ## The object -/

/-- The member `custom`. -/
def JsonValue.member (v : JsonValue) : Member where
  before := []
  key := (plainBody "custom" (by decide)).text
  beforeColon := []
  behindColon := v.before
  value := v.value
  behind := v.behind
  objects := v.objects
  arrays := v.arrays
  isWs_before := isWs_nil
  isStringBody_key := (plainBody "custom" (by decide)).isStringBody
  isWs_beforeColon := isWs_nil
  isWs_behindColon := v.isWs_before
  isJson_value := v.isJson
  isWs_behind := v.isWs_behind

/-- The members for the fields that are present. -/
def objectMembers (custom : Option JsonValue) (fields : List MetadataField) : List Member :=
  custom.toList.map JsonValue.member ++
    fields.flatMap fun f => f.value.toList.map (stringMember f.key)

/-- What is printed is the object, in the buffer, and no size has wrapped. -/
structure BuildsObject {n : Nat} (prints : List MetadataPrint) (mems : List Member)
    (a : CharArray n) (outcome : Option (CharArray n)) : Prop where
  printed : ∃ b, outcome = some b ∧ b.string = some (objectText mems)
  wellFormed : ∃ x y, IsJson .value x y (objectText mems)
  noWrap : ∀ k st, (prints.take k).foldlM MetadataPrint.run (a, 0) = some st → st.2 ≤ n

variable {mem : Member} {mems : List Member} {t : Bytes}

/-! ## One print -/

section Print

variable {n : Nat} {a : CharArray n} {p : MetadataPrint}

/-- The open object with some of its members. -/
def openObject (mems : List Member) : Bytes := 123 :: membersText mems

lemma length_openObject (mems : List Member) : 1 < (openObject mems).length ↔ mems ≠ [] := by
  constructor
  · rintro h rfl
    exact absurd h (by decide)
  · intro h
    obtain ⟨mem, mems, rfl⟩ := List.exists_cons_of_ne_nil h
    have hpos : 0 < (membersText (mem :: mems)).length := by
      cases mems with
      | nil =>
          change 0 < mem.text.length
          simp only [Member.text, Member.front, List.length_append, List.length_cons]
          omega
      | cons next mems =>
          change 0 < (mem.text ++ 44 :: membersText (next :: mems)).length
          rw [List.length_append, List.length_cons]
          omega
    simp only [openObject, List.length_cons]
    omega

/-- A print writes a member behind the others. -/
def MetadataPrint.Writes (p : MetadataPrint) (mems : List Member) (mem : Member) : Prop :=
  p.text (openObject mems).length = (if mems = [] then [] else [44]) ++ mem.text

/-- What has been printed stands at the beginning of the buffer, in front of a zero. -/
def Prints (a : CharArray n) (offset : Nat) (s : Bytes) : Prop :=
  offset = s.length ∧ ∃ rest, a.bytes = s ++ 0 :: rest

/-- A print for which the size is right, or larger. -/
lemma MetadataPrint.run_eq {s t : Bytes} (hbytes : a.bytes = s ++ t)
    (hsize : (p.text s.length).length < (if p.whole then n else remainingSize n s.length))
    (hroom : s.length + (p.text s.length).length < n)
    (hint : s.length + (p.text s.length).length < 2 ^ 31) :
    ∃ st, p.run (a, s.length) = some st ∧ Prints st.1 st.2 (s ++ p.text s.length) := by
  have hsum := a.length_bytes
  rw [hbytes, List.length_append] at hsum
  have hrest : (p.text s.length).length < t.length := by omega
  obtain ⟨b, hb, rest', hbytes'⟩ := CharArray.exists_snprintf hbytes hsize hrest
  have hprinted : asInt (p.text s.length).length = some (p.text s.length).length :=
    if_pos (Nat.lt_of_le_of_lt (Nat.le_add_left _ _) hint)
  have hoffset : asInt (s.length + (p.text s.length).length) =
      some (s.length + (p.text s.length).length) := if_pos hint
  refine ⟨(b, s.length + (p.text s.length).length), ?_, ?_, rest', hbytes'⟩
  · rw [MetadataPrint.run]
    dsimp only
    rw [hb, hprinted]
    simp only [Option.bind_eq_bind, Option.bind_some]
    rw [hoffset]
    rfl
  · exact (List.length_append).symm

/-- An offset that has been stored is the length of what has been printed. -/
lemma MetadataPrint.offset_run {st st' : CharArray n × Nat} (h : p.run st = some st') :
    st'.2 = st.2 + (p.text st.2).length ∧ st'.2 < 2 ^ 31 := by
  simp only [MetadataPrint.run, Option.bind_eq_bind, Option.bind_eq_some_iff] at h
  obtain ⟨b, -, printed, hprinted, offset, hoffset, heq⟩ := h
  rw [asInt, Option.ite_none_right_eq_some] at hprinted hoffset
  cases heq
  obtain ⟨-, hprinted⟩ := hprinted
  obtain ⟨hlt, hoffset⟩ := hoffset
  cases hprinted
  cases hoffset
  exact ⟨rfl, hlt⟩

/-! ## All prints -/

/-- The prints write the members, one behind the other; the size is that of the whole buffer for the
    first one only. -/
def WritesAll : List Member → List MetadataPrint → List Member → Prop
  | _, [], mems => mems = []
  | _, _ :: _, [] => False
  | before, p :: prints, mem :: mems =>
      p.Writes before mem ∧ WritesAll (before ++ [mem]) prints mems

lemma openObject_concat (mems : List Member) (h : p.Writes mems mem) :
    openObject mems ++ p.text (openObject mems).length = openObject (mems ++ [mem]) := by
  rw [h, openObject, openObject, membersText_concat, List.cons_append, List.append_assoc]

lemma length_openObject_le (before mems : List Member) :
    (openObject before).length ≤ (openObject (before ++ mems)).length := by
  induction mems generalizing before with
  | nil => rw [List.append_nil]
  | cons mem mems ih =>
      have hnext := ih (before ++ [mem])
      rw [List.append_assoc, List.singleton_append] at hnext
      have hone : (openObject before).length ≤ (openObject (before ++ [mem])).length := by
        simp only [openObject, membersText_concat, List.length_cons, List.length_append]
        omega
      exact hone.trans hnext

lemma remainingSize_of_le {offset : Nat} (h : offset ≤ n) (hn : n < 2 ^ 64) (hpos : 0 < offset) :
    remainingSize n offset = n - offset := by
  rw [remainingSize, Nat.add_sub_assoc h, Nat.add_mod_left, Nat.mod_eq_of_lt (by omega)]

/-- With room for all members they are printed. -/
lemma foldlM_run {prints : List MetadataPrint} {before : List Member} {offset : Nat}
    (hwrites : WritesAll before prints mems) (h : Prints a offset (openObject before))
    (hroom : (openObject (before ++ mems)).length + 1 < n) (hn : n < 2 ^ 64)
    (hint : (openObject (before ++ mems)).length < 2 ^ 31) :
    ∃ st, prints.foldlM MetadataPrint.run (a, offset) = some st ∧
      Prints st.1 st.2 (openObject (before ++ mems)) := by
  induction prints generalizing before mems a offset with
  | nil =>
      rw [WritesAll] at hwrites
      subst hwrites
      rw [List.append_nil]
      exact ⟨(a, offset), rfl, h⟩
  | cons p prints ih =>
      cases mems with
      | nil => exact absurd hwrites id
      | cons mem mems =>
          obtain ⟨hwrites, hrest⟩ := hwrites
          have hconcat : before ++ mem :: mems = before ++ [mem] ++ mems := by simp
          have htext := openObject_concat before hwrites
          have hlength := congrArg List.length htext
          have hle := length_openObject_le (before ++ [mem]) mems
          rw [List.length_append] at hlength
          rw [hconcat] at hroom hint ⊢
          obtain ⟨rfl, rest, hbytes⟩ := h
          have hsize : (p.text (openObject before).length).length <
              (if p.whole then n else remainingSize n (openObject before).length) := by
            split
            · omega
            · have hpos : 0 < (openObject before).length := Nat.zero_lt_succ _
              rw [remainingSize_of_le (by omega) hn hpos]
              omega
          obtain ⟨st, hst, hprints⟩ := MetadataPrint.run_eq hbytes hsize (by omega) (by omega)
          rw [htext] at hprints
          obtain ⟨st', hst', hprints'⟩ := ih hrest hprints hroom hint
          refine ⟨st', ?_, hprints'⟩
          rw [List.foldlM_cons, hst]
          exact hst'

/-- The offset is the length of what is printed, whatever room there is. -/
lemma offset_foldlM {prints : List MetadataPrint} {before : List Member} {st st' : CharArray n × Nat}
    (hwrites : WritesAll before prints mems) (hst : st.2 = (openObject before).length)
    (hlt : st.2 < 2 ^ 31) (h : prints.foldlM MetadataPrint.run st = some st') :
    st'.2 = (openObject (before ++ mems)).length ∧ st'.2 < 2 ^ 31 := by
  induction prints generalizing before mems st with
  | nil =>
      rw [WritesAll] at hwrites
      subst hwrites
      cases h
      rw [List.append_nil]
      exact ⟨hst, hlt⟩
  | cons p prints ih =>
      cases mems with
      | nil => exact absurd hwrites id
      | cons mem mems =>
          obtain ⟨hwrites, hrest⟩ := hwrites
          rw [List.foldlM_cons, Option.bind_eq_bind, Option.bind_eq_some_iff] at h
          obtain ⟨next, hnext, h⟩ := h
          obtain ⟨hoffset, hlt'⟩ := MetadataPrint.offset_run hnext
          have hlength := congrArg List.length (openObject_concat before hwrites)
          rw [List.length_append, ← hst, ← hoffset] at hlength
          have hall := ih hrest hlength hlt' h
          rwa [List.append_assoc, List.singleton_append] at hall

/-- Offsets grow. -/
lemma offset_le_foldlM {prints : List MetadataPrint} {st st' : CharArray n × Nat}
    (h : prints.foldlM MetadataPrint.run st = some st') : st.2 ≤ st'.2 := by
  induction prints generalizing st with
  | nil =>
      cases h
      exact Nat.le_refl _
  | cons p prints ih =>
      rw [List.foldlM_cons, Option.bind_eq_bind, Option.bind_eq_some_iff] at h
      obtain ⟨next, hnext, h⟩ := h
      have hoffset := (MetadataPrint.offset_run hnext).1
      have hle := ih h
      omega

end Print

/-! ## The members that are given -/

lemma length_member (v : JsonValue) : v.member.text.length = v.text.length + 9 := by
  have hkey : v.member.key.length = 6 := rfl
  simp only [Member.text, Member.front, JsonValue.text, List.length_append, List.length_cons, hkey]
  simp only [JsonValue.member, List.length_nil]
  omega

lemma writes_custom (whole : Bool) (v : JsonValue) : (printCustom whole v).Writes [] v.member := by
  have hkey : v.member.key = ascii "custom" := rfl
  rw [MetadataPrint.Writes, if_pos rfl, Member.text, Member.front, hkey]
  rfl

lemma writes_print (f : MetadataField) (v : JsonBody) (before : List Member) :
    (f.print v).Writes before (stringMember f.key v) := by
  rw [MetadataPrint.Writes, MetadataField.print, text_stringMember]
  dsimp only
  by_cases hne : before = []
  · rw [if_pos hne, if_neg fun h => (length_openObject before).mp h hne]
  · rw [if_neg hne, if_pos ((length_openObject before).mpr hne)]

lemma writesAll_append {before first rest : List Member} {prints more : List MetadataPrint}
    (hfirst : WritesAll before prints first) (hrest : WritesAll (before ++ first) more rest) :
    WritesAll before (prints ++ more) (first ++ rest) := by
  induction prints generalizing before first with
  | nil =>
      rw [WritesAll] at hfirst
      subst hfirst
      rwa [List.append_nil] at hrest
  | cons p prints ih =>
      cases first with
      | nil => exact absurd hfirst id
      | cons mem first =>
          refine ⟨hfirst.1, ih hfirst.2 ?_⟩
          rwa [List.append_assoc, List.singleton_append]

lemma writesAll_fields (fields : List MetadataField) (before : List Member) :
    WritesAll before (fields.flatMap MetadataField.prints)
      (fields.flatMap fun f => f.value.toList.map (stringMember f.key)) := by
  induction fields generalizing before with
  | nil => rfl
  | cons f fields ih =>
      rw [List.flatMap_cons, List.flatMap_cons]
      refine writesAll_append ?_ (ih _)
      rw [MetadataField.prints]
      cases f.value with
      | none => rfl
      | some v => exact ⟨writes_print f v before, rfl⟩

/-! ## Sizes -/

section Sizes

variable {spare : Nat} {whole : Bool} {custom : Option JsonValue} {fields : List MetadataField}

lemma length_objectMembers_le (custom : Option JsonValue) (fields : List MetadataField) :
    (objectMembers custom fields).length ≤ fields.length + 1 := by
  have hcustom : (custom.toList.map JsonValue.member).length ≤ 1 := by
    cases custom with
    | none => exact Nat.zero_le _
    | some v => exact Nat.le_refl _
  have hfields : ∀ fields : List MetadataField, (fields.flatMap fun f =>
      f.value.toList.map (stringMember f.key)).length ≤ fields.length := by
    intro fields
    induction fields with
    | nil => exact Nat.le_refl _
    | cons f fields ih =>
        have hone : (f.value.toList.map (stringMember f.key)).length ≤ 1 := by
          cases f.value with
          | none => exact Nat.zero_le _
          | some v => exact Nat.le_refl _
        rw [List.flatMap_cons, List.length_append, List.length_cons]
        omega
  have hall := hfields fields
  rw [objectMembers, List.length_append]
  omega

/-- `obj_len` counts the texts of the members. -/
lemma metadataSize_eq (hkeys : ∀ f ∈ fields, f.keySize = f.key.text.length + 5)
    (hne : objectMembers custom fields ≠ []) : metadataSize spare custom fields =
      ((objectMembers custom fields).map fun mem => mem.text.length).sum + spare := by
  have hcustom : (custom.map fun v => v.text.length + 9).getD 0 =
      ((custom.toList.map JsonValue.member).map fun mem => mem.text.length).sum := by
    cases custom with
    | none => rfl
    | some v =>
        change v.text.length + 9 = v.member.text.length + 0
        rw [length_member]
  have hfields : (fields.map fun f => (f.value.map fun v => v.text.length + f.keySize).getD 0).sum =
      ((fields.flatMap fun f => f.value.toList.map (stringMember f.key)).map
        fun mem => mem.text.length).sum := by
    clear hne hcustom
    induction fields with
    | nil => rfl
    | cons f fields ih =>
        have hone : (f.value.map fun v => v.text.length + f.keySize).getD 0 =
            ((f.value.toList.map (stringMember f.key)).map fun mem => mem.text.length).sum := by
          cases f.value with
          | none => rfl
          | some v =>
              change v.text.length + f.keySize = (stringMember f.key v).text.length + 0
              rw [length_stringMember, hkeys f List.mem_cons_self]
              rfl
        rw [List.map_cons, List.sum_cons, List.flatMap_cons, List.map_append, List.sum_append,
          ih fun g hg => hkeys g (List.mem_cons_of_mem f hg), hone]
  have hsum : ((objectMembers custom fields).map fun mem => mem.text.length).sum =
      (custom.map fun v => v.text.length + 9).getD 0 +
        (fields.map fun f => (f.value.map fun v => v.text.length + f.keySize).getD 0).sum := by
    rw [objectMembers, List.map_append, List.sum_append, hcustom, hfields]
  have hpos : 0 < ((objectMembers custom fields).map fun mem => mem.text.length).sum := by
    have hlong := (length_openObject _).mpr hne
    obtain ⟨mem, mems, hmems⟩ := List.exists_cons_of_ne_nil hne
    have hmem : 0 < mem.text.length := by
      simp only [Member.text, Member.front, List.length_append, List.length_cons]
      omega
    rw [hmems, List.map_cons, List.sum_cons]
    omega
  rw [metadataSize, ← hsum, if_pos hpos]

/-- Without members nothing is allocated. -/
lemma metadataSize_nil (hnil : objectMembers custom fields = []) :
    metadataSize spare custom fields = 0 := by
  rw [objectMembers, List.append_eq_nil_iff] at hnil
  obtain ⟨hcustom, hfields⟩ := hnil
  have hnone : custom = none := by
    cases custom with
    | none => rfl
    | some v => cases hcustom
  have hempty : (fields.map fun f => (f.value.map fun v => v.text.length + f.keySize).getD 0).sum =
      0 := by
    clear hcustom
    induction fields with
    | nil => rfl
    | cons f fields ih =>
        rw [List.flatMap_cons, List.append_eq_nil_iff] at hfields
        rw [List.map_cons, List.sum_cons, ih hfields.2]
        cases hvalue : f.value with
        | none => rfl
        | some v =>
            rw [hvalue] at hfields
            cases hfields.1
  rw [metadataSize, hnone, hempty]
  rfl

/-- All members are written by the prints behind the first one. -/
lemma writesAll_objectMembers (whole : Bool) (custom : Option JsonValue)
    (fields : List MetadataField) : WritesAll []
      (custom.toList.map (printCustom whole) ++ fields.flatMap MetadataField.prints)
      (objectMembers custom fields) := by
  refine writesAll_append ?_ (writesAll_fields fields _)
  cases custom with
  | none => rfl
  | some v => exact ⟨writes_custom whole v, rfl⟩

/-- **The object is printed** where there are members and an `int` can count their text. -/
lemma object_printed (whole : Bool) (hkeys : ∀ f ∈ fields, f.keySize = f.key.text.length + 5)
    (hspare : fields.length + 3 ≤ spare) (hsmall : spare ≤ 9)
    (hne : objectMembers custom fields ≠ [])
    (hint : (openObject (objectMembers custom fields)).length < 2 ^ 31)
    (a : CharArray (metadataSize spare custom fields)) :
    ∃ st, (metadataPrints whole custom fields).foldlM MetadataPrint.run (a, 0) = some st ∧
      Prints st.1 st.2 (openObject (objectMembers custom fields)) ∧
      (openObject (objectMembers custom fields)).length + 1 < metadataSize spare custom fields ∧
      metadataSize spare custom fields < 2 ^ 64 := by
  have hsize : metadataSize spare custom fields = _ := metadataSize_eq hkeys hne
  have hlength := length_membersText hne
  have hcount := length_objectMembers_le custom fields
  have hopen : (openObject (objectMembers custom fields)).length =
      (membersText (objectMembers custom fields)).length + 1 := rfl
  have hroom : (openObject (objectMembers custom fields)).length + 1 <
      metadataSize spare custom fields := by omega
  have hn : metadataSize spare custom fields < 2 ^ 64 := by
    have hpos := List.length_pos_of_ne_nil hne
    omega
  have hfirst := length_openObject_le [] (objectMembers custom fields)
  rw [List.nil_append] at hfirst
  obtain ⟨st, hst, hprints⟩ := MetadataPrint.run_eq (n := metadataSize spare custom fields) (a := a)
    (p := ⟨true, fun _ => [123]⟩) (s := []) (List.nil_append _).symm (by
      change 1 < metadataSize spare custom fields
      omega) (by
      change 0 + 1 < metadataSize spare custom fields
      omega) (by decide)
  obtain ⟨st', hst', hprints'⟩ := foldlM_run (writesAll_objectMembers whole custom fields) hprints
    hroom hn hint
  change MetadataPrint.run (a, 0) ⟨true, fun _ => [123]⟩ = some st at hst
  refine ⟨st', ?_, hprints', hroom, hn⟩
  rw [metadataPrints, List.foldlM_cons]
  change (MetadataPrint.run (a, 0) ⟨true, fun _ => [123]⟩).bind _ = _
  rw [hst]
  exact hst'

/-- The offset behind them is an `int`. -/
lemma offset_metadataPrints {n : Nat} {a : CharArray n} {st : CharArray n × Nat}
    (h : (metadataPrints whole custom fields).foldlM MetadataPrint.run (a, 0) = some st) :
    st.2 = (openObject (objectMembers custom fields)).length ∧ st.2 < 2 ^ 31 := by
  rw [metadataPrints, List.foldlM_cons, Option.bind_eq_bind, Option.bind_eq_some_iff] at h
  obtain ⟨next, hnext, h⟩ := h
  obtain ⟨hoffset, hlt⟩ := MetadataPrint.offset_run hnext
  have hall : st.2 = (openObject ([] ++ objectMembers custom fields)).length ∧ st.2 < 2 ^ 31 :=
    offset_foldlM (writesAll_objectMembers whole custom fields) hoffset hlt h
  exact hall

/-- No offset is behind the buffer where the last one is not. -/
lemma noWrap_of_foldlM {n : Nat} {prints : List MetadataPrint} {a : CharArray n}
    {st : CharArray n × Nat} (h : prints.foldlM MetadataPrint.run (a, 0) = some st)
    (hle : st.2 ≤ n) :
    ∀ k st', (prints.take k).foldlM MetadataPrint.run (a, 0) = some st' → st'.2 ≤ n := by
  intro k st' hst'
  rw [← List.take_append_drop k prints, List.foldlM_append, hst'] at h
  exact (offset_le_foldlM h).trans hle

/-- Behind the members the closing brace is printed. -/
lemma printEnd_eq {n offset : Nat} {a : CharArray n} (h : Prints a offset (openObject mems))
    (hroom : (openObject mems).length + 1 < n) (hn : n < 2 ^ 64) :
    ∃ b, a.snprintf offset (remainingSize n offset) [125] = some b ∧
      b.string = some (objectText mems) := by
  obtain ⟨rfl, rest, hbytes⟩ := h
  have hpos : 0 < (openObject mems).length := Nat.zero_lt_succ _
  have hsum := a.length_bytes
  rw [hbytes, List.length_append, List.length_cons] at hsum
  have hsize : ([125] : Bytes).length < remainingSize n (openObject mems).length := by
    rw [remainingSize_of_le (by omega) hn hpos, List.length_cons, List.length_nil]
    omega
  obtain ⟨b, hb, rest', hbytes'⟩ := CharArray.exists_snprintf hbytes hsize (by
    rw [List.length_cons, List.length_cons, List.length_nil]
    omega)
  rw [openObject, List.cons_append] at hbytes'
  exact ⟨b, hb, CharArray.string_of_bytes hbytes' (zero_not_mem_objectText mems)⟩

end Sizes

/-! ## Which bodies are right -/

section Bodies

variable {spare : Nat} {whole : Bool} {custom : Option JsonValue} {fields : List MetadataField}

/-- An object that is there has members, and an `int` has counted it. -/
lemma members_of_builds {a : CharArray (metadataSize spare custom fields)}
    {outcome : Option (CharArray (metadataSize spare custom fields))}
    (h : BuildsObject (metadataPrints whole custom fields) (objectMembers custom fields) a outcome)
    (hfold : ∃ st, (metadataPrints whole custom fields).foldlM MetadataPrint.run (a, 0) = some st) :
    objectMembers custom fields ≠ [] ∧ (openObject (objectMembers custom fields)).length < 2 ^ 31 := by
  obtain ⟨st, hst⟩ := hfold
  obtain ⟨hoffset, hlt⟩ := offset_metadataPrints hst
  refine ⟨?_, hoffset ▸ hlt⟩
  intro hnil
  have hwrap := h.noWrap (metadataPrints whole custom fields).length st (by rwa [List.take_length])
  have hzero : metadataSize spare custom fields = 0 := metadataSize_nil hnil
  have hpos : 0 < (openObject (objectMembers custom fields)).length := Nat.zero_lt_succ _
  omega

end Bodies

def UuidMetadata.members (d : UuidMetadata) : List Member := objectMembers d.custom d.fields

def ChannelMetadata.members (d : ChannelMetadata) : List Member := objectMembers d.custom d.fields

lemma UuidMetadata.keySize_eq (d : UuidMetadata) :
    ∀ f ∈ d.fields, f.keySize = f.key.text.length + 5 := by
  simp only [UuidMetadata.fields, List.forall_mem_cons]
  exact ⟨rfl, rfl, rfl, rfl, rfl, rfl, List.forall_mem_nil _⟩

lemma ChannelMetadata.keySize_eq (d : ChannelMetadata) :
    ∀ f ∈ d.fields, f.keySize = f.key.text.length + 5 := by
  simp only [ChannelMetadata.fields, List.forall_mem_cons]
  exact ⟨rfl, rfl, rfl, rfl, List.forall_mem_nil _⟩

/-- The object with the members, from a buffer in which they have been printed. -/
lemma builds_of_printed {n : Nat} {prints : List MetadataPrint} {a b : CharArray n}
    {st : CharArray n × Nat} {outcome : Option (CharArray n)}
    (hst : prints.foldlM MetadataPrint.run (a, 0) = some st)
    (hprints : Prints st.1 st.2 (openObject mems)) (hroom : (openObject mems).length + 1 < n)
    (houtcome : outcome = some b) (hb : b.string = some (objectText mems)) :
    BuildsObject prints mems a outcome := by
  refine ⟨⟨b, houtcome, hb⟩, isJson_objectText mems, noWrap_of_foldlM hst ?_⟩
  rw [hprints.1]
  omega

/-- The body for a UUID is right as far as `int` counts, and where a field is present. -/
lemma uuid_body_right (d : UuidMetadata) (a : CharArray d.size) :
    BuildsObject d.prints d.members a (pubnubSetUuidmetadataEx d a) ↔
      d.members ≠ [] ∧ (openObject d.members).length < 2 ^ 31 := by
  constructor
  · intro h
    obtain ⟨b, hb, -⟩ := h.printed
    rw [pubnubSetUuidmetadataEx, Option.bind_eq_bind, Option.bind_eq_some_iff] at hb
    obtain ⟨st, hst, -⟩ := hb
    exact members_of_builds h ⟨st, hst⟩
  · rintro ⟨hne, hint⟩
    obtain ⟨st, hst, hprints, hroom, hn⟩ :=
      object_printed false d.keySize_eq (Nat.le_refl _) (Nat.le_refl 9) hne hint a
    obtain ⟨b, hb, hstring⟩ := printEnd_eq hprints hroom hn
    refine builds_of_printed hst hprints hroom ?_ hstring
    exact Option.bind_eq_some_iff.mpr ⟨st, hst, hb⟩

/-- So is the body for a channel, whose last offset counts the closing brace as well. -/
lemma channel_body_right (d : ChannelMetadata) (a : CharArray d.size) :
    BuildsObject d.prints d.members a (pubnubSetChannelmetadataEx d a) ↔
      d.members ≠ [] ∧ (objectText d.members).length < 2 ^ 31 := by
  have hlength : (objectText d.members).length = (openObject d.members).length + 1 := by
    simp only [objectText, openObject, List.length_cons, List.length_append, List.length_nil]
  constructor
  · intro h
    obtain ⟨b, hb, -⟩ := h.printed
    rw [pubnubSetChannelmetadataEx, Option.bind_eq_bind, Option.bind_eq_some_iff] at hb
    obtain ⟨st, hst, hb⟩ := hb
    rw [Option.bind_eq_some_iff] at hb
    obtain ⟨last, hlast, -⟩ := hb
    have hoffset := MetadataPrint.offset_run hlast
    have hopen := (offset_metadataPrints hst).1
    refine ⟨(members_of_builds h ⟨st, hst⟩).1, ?_⟩
    rw [hlength]
    change st.2 = (openObject d.members).length at hopen
    change last.2 = st.2 + 1 ∧ last.2 < 2 ^ 31 at hoffset
    omega
  · rintro ⟨hne, hint⟩
    rw [hlength] at hint
    obtain ⟨st, hst, hprints, hroom, hn⟩ :=
      object_printed true d.keySize_eq (Nat.le_refl _) (by decide : 7 ≤ 9) hne
        (Nat.lt_of_succ_lt hint) a
    obtain ⟨b, hb, hstring⟩ := printEnd_eq hprints hroom hn
    refine builds_of_printed (b := b) hst hprints hroom ?_ hstring
    have hlast : printEnd.run st = some (b, st.2 + 1) := by
      have hone : asInt ([125] : Bytes).length = some 1 := rfl
      have hoffset : asInt (st.2 + 1) = some (st.2 + 1) := if_pos (hprints.1 ▸ hint)
      rw [MetadataPrint.run, printEnd]
      dsimp only
      rw [if_neg Bool.false_ne_true, hb]
      simp only [Option.bind_eq_bind, Option.bind_some]
      rw [hone, Option.bind_some, hoffset]
      rfl
    refine Option.bind_eq_some_iff.mpr ⟨st, hst, ?_⟩
    exact Option.bind_eq_some_iff.mpr ⟨(b, st.2 + 1), hlast, rfl⟩

/-- **Bodies of metadata requests.**  The object is printed whole, is well formed and has exactly the
    fields that are present, and no size wraps, if and only if a field is present and an `int` can
    count what is printed. -/
theorem metadata_bodies_right (u : UuidMetadata) (a : CharArray u.size) (c : ChannelMetadata)
    (b : CharArray c.size) :
    (BuildsObject u.prints u.members a (pubnubSetUuidmetadataEx u a) ↔
      u.members ≠ [] ∧ (openObject u.members).length < 2 ^ 31) ∧
    (BuildsObject c.prints c.members b (pubnubSetChannelmetadataEx c b) ↔
      c.members ≠ [] ∧ (objectText c.members).length < 2 ^ 31) :=
  ⟨uuid_body_right u a, channel_body_right c b⟩

/-- Without a field nothing is allocated, and a brace is printed behind what there is. -/
theorem no_metadata_not_right : ¬ ∀ (u : UuidMetadata) (a : CharArray u.size),
    BuildsObject u.prints u.members a (pubnubSetUuidmetadataEx u a) := by
  intro h
  exact ((uuid_body_right {} (CharArray.blank _)).mp (h {} _)).1 rfl

end PubNub
