import PubNubCore.Core.Types
import PubNubCore.Lib.JsonDenotation
import PubNubCore.Lib.JsonObjects
import PubNubCore.Lib.Printing
import PubNubCore.Lib.SeparatedLists

/-!
# The presence state of a context

`pbcc_adjust_state` of `core/pbcc_set_state.c`.  It writes to the state of the context an object with a
member for every channel and every channel group of two lists.  The size of the object is computed
ahead of it, and a string that the context holds already is written over if it is as long.

`pbcc_adjust_state_right` says when the state is the object that it should be.  A list of channels that
begins with a comma is passed over; an empty first element leaves a comma behind the brace; names are
not escaped; and the size has no comma between the channels and the groups, which is a byte too few
for one channel and one group.
-/

namespace PubNub

open JsonText

/-- The state that is set. -/
structure StateText where
  text : Bytes
  isJsonText : IsJsonText text

/-- Memory that `core->state` points to. -/
structure StateBuffer where
  size : Nat
  array : CharArray size

/-- What `core->state` points to between two calls. -/
structure StateString extends StateBuffer where
  terminated : array.Terminated

structure AdjustArgs where
  channel : Option CText
  channelGroup : Option CText
  state : StateText

/-! ## The size -/

/-- `tot_ch`, `tot_cg` -/
def listTotal : Option CText → Nat
  | none => 0
  | some list => list.text.count 44 + 1

/-- `ch_keys_len`, `chg_keys_len` -/
def listKeysLen : Option CText → Nat
  | none => 0
  | some list => list.text.length + (list.text.count 44 + 1) * (1 * 2 + 1) + list.text.count 44 * 1

/-- What is assigned to `buff_size`. -/
def stateSize (a : AdjustArgs) : Nat :=
  (listTotal a.channel + listTotal a.channelGroup) * a.state.text.length +
    listKeysLen a.channel + listKeysLen a.channelGroup + 2 + 1

/-- `strlen(core->state)` -/
def StateString.strlen (s : StateString) : Nat := (s.array.bytes.takeWhile (· != 0)).length

/-- Where the object is written to; `memory` is what `malloc` and `realloc` give. -/
def stateBuffer (memory : (n : Nat) → CharArray n) (old : Option StateString) (buffSize : Nat) :
    StateBuffer :=
  match old with
  | none => ⟨buffSize, memory buffSize⟩
  | some s => if s.strlen < buffSize then ⟨buffSize, memory buffSize⟩ else s.toStateBuffer

/-! ## The object -/

section Object

variable {n : Nat}

/-- `memcpy(json_state + mem_len, ...)`, and `mem_len` grows by as much. -/
def copyBehind (s : Bytes) (b : CharArray n × Nat) : Option (CharArray n × Nat) :=
  (b.1.write b.2 s).map fun json => (json, b.2 + s.length)

def jsonKvpBuilder (b : CharArray n × Nat) (key val : Bytes) : Option (CharArray n × Nat) :=
  (copyBehind [34] b).bind fun b => (copyBehind key b).bind fun b => (copyBehind [34] b).bind fun b =>
    (copyBehind [58] b).bind (copyBehind val)

/-- A turn of the two loops; `cnt` is `ch_cnt` in the first and `ch_cnt + cg_cnt` in the second. -/
def addElement (val : Bytes) (cnt : Nat) (element : Bytes) (b : CharArray n × Nat) :
    Option (CharArray n × Nat) :=
  (if 0 < cnt ∧ b.1.bytes[b.2 - 1]? ≠ some 44 then copyBehind [44] b else some b).bind fun b =>
    if element = [] then some b else jsonKvpBuilder b element val

def addElements (val : Bytes) : Nat → List Bytes → CharArray n × Nat → Option (CharArray n × Nat)
  | _, [], b => some b
  | cnt, element :: elements, b =>
      (addElement val cnt element b).bind (addElements val (cnt + 1) elements)

/-- The brace behind the elements, in the place of a comma, and the zero. -/
def closeObject (b : CharArray n × Nat) : Option (CharArray n) :=
  let trimComma := if b.1.bytes[b.2 - 1]? = some 44 then 1 else 0
  (b.1.write (b.2 - trimComma) [125]).bind fun json => json.write (b.2 + 1 - trimComma) [0]

end Object

/-- What `strchr` finds between the commas. -/
def listElements : Option CText → List Bytes
  | none => []
  | some list => list.text.splitOn 44

/-- The elements of the first loop: `strncmp(channel, ",", 1) != 0` -/
def channelElements (channel : Option CText) : List Bytes :=
  if (channel.any fun list => list.text.head? == some 44) = true then [] else listElements channel

/-- `pbcc_adjust_state`; a result `none` says that it writes outside of its buffer, or that the size is
    no `int`. -/
def pbccAdjustState (memory : (n : Nat) → CharArray n) (old : Option StateString) (a : AdjustArgs) :
    Option StateBuffer :=
  (asInt (stateSize a)).bind fun buffSize =>
    let buffer := stateBuffer memory old buffSize
    ((copyBehind [123] (buffer.array, 0)).bind fun b =>
      (addElements a.state.text 0 (channelElements a.channel) b).bind fun b =>
        (addElements a.state.text (channelElements a.channel).length (listElements a.channelGroup)
          b).bind closeObject).map fun json => ⟨buffer.size, json⟩

/-! ## What it is for -/

/-- The elements of a list that are not empty. -/
def listNames (list : Option CText) : List Bytes := (listElements list).filter (· ≠ [])

/-- A text is an object which has a member for each of the names, all with the state as the value. -/
def MapsNames (names : List Bytes) (state text : Bytes) : Prop :=
  ∃ mems : List Member, text = objectText mems ∧
    mems.map (fun mem => denoted (jsonUnits mem.key)) = names ∧
    ∀ mem ∈ mems, mem.behindColon ++ (mem.value ++ mem.behind) = state

/-- The call keeps to its buffer and leaves there the state of all channels and groups. -/
def AdjustsState (memory : (n : Nat) → CharArray n) (old : Option StateString) (a : AdjustArgs) :
    Prop :=
  ∃ buffer text, pbccAdjustState memory old a = some buffer ∧ buffer.array.string = some text ∧
    MapsNames (listNames a.channel ++ listNames a.channelGroup) a.state.text text

/-- One channel and one group. -/
def OneOfEach (a : AdjustArgs) : Prop :=
  ∃ channel group, channel ≠ [] ∧ group ≠ [] ∧ listElements a.channel = [channel] ∧
    listElements a.channelGroup = [group]

/-- What the call needs. -/
structure StateFits (old : Option StateString) (a : AdjustArgs) : Prop where
  size : stateSize a < 2 ^ 31
  plain : ∀ name ∈ listNames a.channel ++ listNames a.channelGroup, name.all isPlain = true
  channels : ∀ list, a.channel = some list → list.text.head? = some 44 → listNames a.channel = []
  first : (channelElements a.channel ++ listElements a.channelGroup).head? = some [] →
    listNames a.channel ++ listNames a.channelGroup = []
  /-- A string that is written over has the byte that the size has not. -/
  spare : OneOfEach a → ∃ s, old = some s ∧ stateSize a ≤ s.strlen

/-! ## What is written -/

section Writing

variable {n : Nat} {front s t val : Bytes} {json : CharArray n}
  {out : Option (CharArray n × Nat)} {f : CharArray n × Nat → Option (CharArray n × Nat)}

/-- The text is in front of everything else, if there is room for it. -/
def Becomes (t : Bytes) (out : Option (CharArray n × Nat)) : Prop :=
  if t.length ≤ n then ∃ json, out = some (json, t.length) ∧ t <+: json.bytes else out = none

lemma becomes_of_isPrefix (h : t <+: json.bytes) : Becomes t (some (json, t.length)) := by
  have hle := h.length_le
  rw [json.length_bytes] at hle
  rw [Becomes, if_pos hle]
  exact ⟨json, rfl, h⟩

/-- What is written first stays, and if there is no room for it there is none for the whole. -/
lemma Becomes.bind (h : Becomes s out) (hle : s.length ≤ t.length)
    (hf : ∀ json, s <+: json.bytes → Becomes t (f (json, s.length))) : Becomes t (out.bind f) := by
  rw [Becomes] at h
  split at h
  · obtain ⟨json, rfl, hjson⟩ := h
    exact hf json hjson
  · rename_i hlong
    rw [Becomes, if_neg (by omega), h, Option.bind_none]

lemma becomes_copyBehind (h : front <+: json.bytes) (s : Bytes) :
    Becomes (front ++ s) (copyBehind s (json, front.length)) := by
  obtain ⟨rest, hrest⟩ := h
  have hlength := json.length_bytes
  rw [← hrest, List.length_append] at hlength
  rw [Becomes, List.length_append]
  split
  · obtain ⟨b, hb, hbytes⟩ := CharArray.exists_write (s := s) hrest.symm (by omega)
    rw [copyBehind, hb]
    exact ⟨b, rfl, hbytes ▸ List.prefix_append _ _⟩
  · rename_i hlong
    have hnone : json.write front.length s = none := by
      rw [CharArray.write, dif_neg hlong]
    rw [copyBehind, hnone, Option.map_none]

/-- A member. -/
def memberText (val key : Bytes) : Bytes := [34] ++ key ++ [34] ++ [58] ++ val

lemma becomes_jsonKvpBuilder (h : front <+: json.bytes) (key val : Bytes) :
    Becomes (front ++ memberText val key) (jsonKvpBuilder (json, front.length) key val) := by
  have hlength : ∀ s t u : Bytes, (s ++ t).length ≤ (s ++ t ++ u).length := fun s t u => by
    rw [@List.length_append _ (s ++ t)]
    exact Nat.le_add_right _ _
  simp only [memberText, ← List.append_assoc]
  refine (becomes_copyBehind h [34]).bind ?_ fun json h => (becomes_copyBehind h key).bind ?_
    fun json h => (becomes_copyBehind h [34]).bind ?_ fun json h => (becomes_copyBehind h [58]).bind ?_
    fun json h => becomes_copyBehind h val
  all_goals simp only [List.length_append]; omega

/-- What a turn of a loop adds. -/
def elementText (val : Bytes) (cnt : Nat) (front element : Bytes) : Bytes :=
  (if 0 < cnt ∧ front.getLast? ≠ some 44 then [44] else []) ++
    if element = [] then [] else memberText val element

/-- What the loops make of a text. -/
def elementsText (val : Bytes) : Nat → Bytes → List Bytes → Bytes
  | _, front, [] => front
  | cnt, front, element :: elements =>
      elementsText val (cnt + 1) (front ++ elementText val cnt front element) elements

/-- The text behind which the brace stands. -/
def trimmed (front : Bytes) : Bytes := if front.getLast? = some 44 then front.dropLast else front

lemma getElem?_last_of_isPrefix (h : front <+: json.bytes) (hne : front ≠ []) :
    json.bytes[front.length - 1]? = front.getLast? := by
  have hpos := List.length_pos_iff.mpr hne
  obtain ⟨rest, hrest⟩ := h
  rw [← hrest, List.getElem?_append_left (by omega), List.getLast?_eq_getElem?]

lemma becomes_addElement (h : front <+: json.bytes) (hne : front ≠ []) (cnt : Nat)
    (element : Bytes) : Becomes (front ++ elementText val cnt front element)
      (addElement val cnt element (json, front.length)) := by
  have hcomma : Becomes (front ++ if 0 < cnt ∧ front.getLast? ≠ some 44 then [44] else [])
      (if 0 < cnt ∧ json.bytes[front.length - 1]? ≠ some 44 then
        copyBehind [44] (json, front.length) else some (json, front.length)) := by
    rw [getElem?_last_of_isPrefix h hne]
    split
    · exact becomes_copyBehind h [44]
    · rw [List.append_nil]
      exact becomes_of_isPrefix h
  rw [elementText, ← List.append_assoc]
  refine hcomma.bind ?_ fun json h => ?_
  · rw [@List.length_append _ (front ++ _)]
    exact Nat.le_add_right _ _
  · by_cases helement : element = []
    · rw [if_pos helement, if_pos helement, List.append_nil]
      exact becomes_of_isPrefix h
    · rw [if_neg helement, if_neg helement]
      exact becomes_jsonKvpBuilder h element val

lemma isPrefix_elementsText (cnt : Nat) (front : Bytes) (elements : List Bytes) :
    front <+: elementsText val cnt front elements := by
  induction elements generalizing cnt front with
  | nil => exact List.prefix_refl front
  | cons element elements ih => exact (List.prefix_append _ _).trans (ih _ _)

lemma becomes_addElements (h : front <+: json.bytes) (hne : front ≠ []) (cnt : Nat)
    (elements : List Bytes) : Becomes (elementsText val cnt front elements)
      (addElements val cnt elements (json, front.length)) := by
  induction elements generalizing cnt front json with
  | nil => exact becomes_of_isPrefix h
  | cons element elements ih =>
      exact (becomes_addElement h hne cnt element).bind (isPrefix_elementsText _ _ _).length_le
        fun json h => ih h (List.append_ne_nil_of_left_ne_nil hne _) _

lemma becomes_closeObject (h : front <+: json.bytes) (hne : front ≠ []) :
    ∃ out : Option (CharArray n × Nat), Becomes (trimmed front ++ [125] ++ [0]) out ∧
      closeObject (json, front.length) = out.map Prod.fst := by
  have hkept : trimmed front <+: json.bytes := by
    rw [trimmed]
    split
    · exact (List.dropLast_prefix front).trans h
    · exact h
  have hplace : front.length - (if json.bytes[front.length - 1]? = some 44 then 1 else 0) =
      (trimmed front).length := by
    rw [getElem?_last_of_isPrefix h hne, trimmed]
    split
    · exact (List.length_dropLast).symm
    · rfl
  have hpos := List.length_pos_iff.mpr hne
  have hbehind : front.length + 1 - (if json.bytes[front.length - 1]? = some 44 then 1 else 0) =
      (trimmed front).length + 1 := by
    rw [← hplace]
    split
    · omega
    · rfl
  refine ⟨(copyBehind [125] (json, (trimmed front).length)).bind (copyBehind [0]),
    (becomes_copyBehind hkept [125]).bind ?_ fun json h => becomes_copyBehind h [0], ?_⟩
  · simp only [List.length_append]
    omega
  · simp only [closeObject, hplace, hbehind, copyBehind, Option.bind_map, Option.map_bind]
    refine congrArg _ (funext fun json => ?_)
    rw [Function.comp_apply, Function.comp_apply, copyBehind, Option.map_map]
    exact Option.map_id'.symm

end Writing

lemma elementsText_append (val : Bytes) (cnt : Nat) (front : Bytes) (elements more : List Bytes) :
    elementsText val cnt front (elements ++ more) =
      elementsText val (cnt + elements.length) (elementsText val cnt front elements) more := by
  induction elements generalizing cnt front with
  | nil => rfl
  | cons element elements ih =>
      rw [List.cons_append, elementsText, elementsText, ih, List.length_cons, Nat.add_right_comm,
        Nat.add_assoc]

/-- The elements that are gone through. -/
def stateElements (a : AdjustArgs) : List Bytes :=
  channelElements a.channel ++ listElements a.channelGroup

/-- What the call writes. -/
def stateText (a : AdjustArgs) : Bytes :=
  trimmed (elementsText a.state.text 0 [123] (stateElements a)) ++ [125]

/-- **The call.**  All that it writes is this text and the zero behind it. -/
lemma pbccAdjustState_cases {memory : (n : Nat) → CharArray n} {old : Option StateString}
    {a : AdjustArgs} (hsize : stateSize a < 2 ^ 31) :
    if (stateText a).length < (stateBuffer memory old (stateSize a)).size then
      ∃ buffer, pbccAdjustState memory old a = some buffer ∧
        stateText a ++ [0] <+: buffer.array.bytes
    else pbccAdjustState memory old a = none := by
  set buffer := stateBuffer memory old (stateSize a) with hbuffer
  have hne : ([123] : Bytes) ≠ [] := List.cons_ne_nil _ _
  have hloops : Becomes (elementsText a.state.text 0 [123] (stateElements a))
      ((copyBehind [123] (buffer.array, 0)).bind fun b =>
        (addElements a.state.text 0 (channelElements a.channel) b).bind
          (addElements a.state.text (channelElements a.channel).length
            (listElements a.channelGroup))) := by
    refine (@becomes_copyBehind _ [] _ List.nil_prefix [123]).bind
      (isPrefix_elementsText _ _ _).length_le fun json h => ?_
    rw [stateElements, elementsText_append, Nat.zero_add]
    refine (becomes_addElements h hne 0 _).bind (isPrefix_elementsText _ _ _).length_le
      fun json h => becomes_addElements h ?_ _ _
    exact List.ne_nil_of_length_pos ((isPrefix_elementsText _ _ _).length_le.trans_lt' Nat.zero_lt_one)
  have hcall : pbccAdjustState memory old a = (((copyBehind [123] (buffer.array, 0)).bind fun b =>
        (addElements a.state.text 0 (channelElements a.channel) b).bind
          (addElements a.state.text (channelElements a.channel).length
            (listElements a.channelGroup))).bind closeObject).map fun json => ⟨buffer.size, json⟩ := by
    rw [pbccAdjustState, asInt, if_pos hsize, Option.bind_some]
    simp only [Option.bind_assoc]
    rfl
  have hbegins := @isPrefix_elementsText a.state.text 0 [123] (stateElements a)
  rw [hcall]
  rw [Becomes] at hloops
  split at hloops
  · obtain ⟨json, hjson, hbytes⟩ := hloops
    obtain ⟨out, hout, hclose⟩ := becomes_closeObject hbytes
      (List.ne_nil_of_length_pos (hbegins.length_le.trans_lt' Nat.zero_lt_one))
    rw [hjson, Option.bind_some, hclose]
    rw [Becomes, List.length_append, List.length_singleton] at hout
    split at hout
    · obtain ⟨closed, rfl, hclosed⟩ := hout
      rw [if_pos (by rwa [stateText])]
      exact ⟨⟨_, closed⟩, rfl, hclosed⟩
    · rw [if_neg (by rwa [stateText]), hout]
      rfl
  · rename_i hlong
    have htrimmed : (elementsText a.state.text 0 [123] (stateElements a)).length ≤
        (stateText a).length := by
      rw [stateText, trimmed, List.length_append, List.length_singleton]
      split
      · rw [List.length_dropLast]
        omega
      · omega
    rw [if_neg (by omega), hloops]
    rfl

/-! ## Objects and texts that are none -/

section Objects

variable {val front : Bytes} {names elements : List Bytes}

/-- The members, with commas between them. -/
def memberTexts (val : Bytes) (names : List Bytes) : Bytes :=
  [44].intercalate (names.map (memberText val))

lemma memberTexts_concat (hne : names ≠ []) (name : Bytes) :
    memberTexts val (names ++ [name]) = memberTexts val names ++ [44] ++ memberText val name := by
  induction names with
  | nil => exact absurd rfl hne
  | cons first names ih =>
      cases names with
      | nil => simp [memberTexts]
      | cons second names =>
          have hrest := ih (List.cons_ne_nil _ _)
          simp only [memberTexts, List.map_append, List.map_cons, List.map_nil, List.cons_append,
            List.intercalate_cons_cons, List.append_assoc] at hrest ⊢
          rw [hrest]

lemma getLast?_memberText (hval : val.getLast? ≠ some 44) (key : Bytes) :
    ∀ front : Bytes, (front ++ memberText val key).getLast? ≠ some 44 := by
  intro front
  rw [memberText, ← List.append_assoc]
  by_cases hne : val = []
  · rw [hne, List.append_nil, ← List.append_assoc, List.getLast?_concat]
    decide
  · rwa [List.getLast?_append_of_ne_nil _ hne]

lemma getLast?_memberTexts (hval : val.getLast? ≠ some 44) (hne : names ≠ []) :
    ([123] ++ memberTexts val names).getLast? ≠ some 44 := by
  induction names using List.reverseRecOn with
  | nil => exact absurd rfl hne
  | append_singleton names name _ =>
      by_cases hnil : names = []
      · subst hnil
        simpa [memberTexts] using getLast?_memberText hval name [123]
      · rw [memberTexts_concat hnil, ← List.append_assoc]
        exact getLast?_memberText hval name _

lemma trimmed_of_ne (h : front.getLast? ≠ some 44) : trimmed front = front := if_neg h

lemma trimmed_comma (front : Bytes) : trimmed (front ++ [44]) = front := by
  rw [trimmed, if_pos List.getLast?_concat, List.dropLast_concat]

/-- Once there is a member, the elements that are not empty are members too, and what is empty leaves
    no comma that is not taken away. -/
lemma trimmed_elementsText (hval : val.getLast? ≠ some 44) (hne : names ≠ [])
    (hfront : front = [123] ++ memberTexts val names ∨
      front = [123] ++ memberTexts val names ++ [44]) {cnt : Nat} (hcnt : 0 < cnt) :
    trimmed (elementsText val cnt front elements) =
      [123] ++ memberTexts val (names ++ elements.filter (· ≠ [])) := by
  induction elements generalizing cnt front names with
  | nil =>
      rw [elementsText, List.filter_nil, List.append_nil]
      rcases hfront with rfl | rfl
      · exact trimmed_of_ne (getLast?_memberTexts hval hne)
      · exact trimmed_comma _
  | cons element elements ih =>
      have hcomma : front ++ (if 0 < cnt ∧ front.getLast? ≠ some 44 then [44] else []) =
          [123] ++ memberTexts val names ++ [44] := by
        rcases hfront with rfl | rfl
        · rw [if_pos ⟨hcnt, getLast?_memberTexts hval hne⟩]
        · rw [if_neg fun h => h.2 List.getLast?_concat, List.append_nil]
      rw [elementsText, elementText, ← List.append_assoc, hcomma]
      by_cases helement : element = []
      · rw [if_pos helement, List.append_nil, ih hne (.inr rfl) (Nat.succ_pos cnt), helement]
        rfl
      · rw [if_neg helement]
        have hfront : [123] ++ memberTexts val names ++ [44] ++ memberText val element =
            [123] ++ memberTexts val (names ++ [element]) := by
          rw [memberTexts_concat hne]
          simp only [List.append_assoc]
        rw [List.filter_cons_of_pos (by simpa using helement), ih
          (List.append_ne_nil_of_left_ne_nil hne [element]) (.inl hfront) (Nat.succ_pos cnt),
          List.append_assoc names]
        rfl

/-- Empty elements alone leave nothing. -/
lemma trimmed_elementsText_of_empty {cnt : Nat} (h : ∀ element ∈ elements, element = [])
    (hfront : front = [123] ∨ front = [123, 44]) :
    trimmed (elementsText val cnt front elements) = [123] := by
  induction elements generalizing cnt front with
  | nil =>
      rcases hfront with rfl | rfl
      · rfl
      · rfl
  | cons element elements ih =>
      have hrest := fun e he => h e (List.mem_cons_of_mem element he)
      rw [elementsText, elementText, h element List.mem_cons_self, if_pos rfl, List.append_nil]
      refine ih hrest ?_
      rcases hfront with rfl | rfl
      · by_cases hcnt : 0 < cnt
        · rw [if_pos ⟨hcnt, by decide⟩]
          exact .inr rfl
        · rw [if_neg fun h => hcnt h.1]
          exact .inl rfl
      · rw [if_neg fun h => h.2 rfl]
        exact .inr rfl

/-- An element that is not empty is written. -/
lemma length_elementsText_of_mem {element : Bytes} {cnt : Nat} (h : element ∈ elements)
    (hne : element ≠ []) : front.length + 4 ≤ (elementsText val cnt front elements).length := by
  induction elements generalizing cnt front with
  | nil => exact absurd h List.not_mem_nil
  | cons first elements ih =>
      rw [elementsText]
      rcases List.mem_cons.mp h with rfl | h
      · refine (isPrefix_elementsText _ _ _).length_le.trans' ?_
        have hpos := List.length_pos_iff.mpr hne
        rw [elementText, if_neg hne, memberText]
        simp only [List.length_append, List.length_singleton]
        omega
      · have hrest : (front ++ elementText val cnt front first).length + 4 ≤
            (elementsText val (cnt + 1) (front ++ elementText val cnt front first) elements).length :=
          ih h
        rw [List.length_append] at hrest
        omega

/-- An empty first element leaves a comma behind the brace, if there is a name. -/
lemma comma_of_first_empty {name : Bytes} (h : name ∈ elements) (hne : name ≠ []) :
    [123, 44] <+: trimmed (elementsText val 0 [123] ([] :: elements)) := by
  cases elements with
  | nil => exact absurd h List.not_mem_nil
  | cons element elements =>
      have hfirst : elementsText val 0 [123] ([] :: element :: elements) =
          elementsText val 1 [123] (element :: elements) := rfl
      have hlength := @length_elementsText_of_mem val [123] _ _ 1 h hne
      have hbegins : [123, 44] <+: elementsText val 1 [123] (element :: elements) := by
        rw [elementsText]
        refine List.IsPrefix.trans ?_ (isPrefix_elementsText _ _ _)
        rw [elementText, if_pos ⟨Nat.zero_lt_one, by decide⟩, ← List.append_assoc]
        exact List.prefix_append [123, 44] _
      rw [hfirst, trimmed]
      split
      · refine List.prefix_of_prefix_length_le hbegins (List.dropLast_prefix _) ?_
        rw [List.length_dropLast]
        change 2 ≤ _
        change 1 + 4 ≤ _ at hlength
        omega
      · exact hbegins

/-- What is written if there is no comma behind the brace. -/
lemma trimmed_elementsText_zero (hval : val.getLast? ≠ some 44)
    (hfirst : elements.head? = some [] → elements.filter (· ≠ []) = []) :
    trimmed (elementsText val 0 [123] elements) =
      [123] ++ memberTexts val (elements.filter (· ≠ [])) := by
  cases elements with
  | nil => rfl
  | cons first elements =>
      by_cases hempty : first = []
      · have hnone := hfirst (by rw [hempty]; rfl)
        rw [hnone, trimmed_elementsText_of_empty (fun e he => ?_) (.inl rfl)]
        · rfl
        · exact by_contra fun hne => List.filter_eq_nil_iff.mp hnone e he (by simpa using hne)
      · rw [elementsText, elementText, if_neg (fun h => Nat.lt_irrefl 0 h.1), if_neg hempty,
          List.nil_append, List.filter_cons_of_pos (by simpa using hempty)]
        have hone : memberTexts val [first] = memberText val first := List.intercalate_singleton
        rw [← hone]
        exact trimmed_elementsText hval (List.cons_ne_nil first []) (.inl rfl) Nat.zero_lt_one

lemma length_memberTexts (hne : names ≠ []) : (memberTexts val names).length + 1 =
    (names.map List.length).sum + names.length * (val.length + 4) := by
  induction names with
  | nil => exact absurd rfl hne
  | cons first names ih =>
      cases names with
      | nil =>
          simp only [memberTexts, List.map_cons, List.map_nil, List.intercalate_singleton, memberText,
            List.length_append, List.length_singleton, List.sum_cons, List.sum_nil]
          omega
      | cons second names =>
          have hrest := ih (List.cons_ne_nil _ _)
          simp only [memberTexts, List.map_cons, List.intercalate_cons_cons, memberText,
            List.length_append, List.length_cons, List.length_nil, List.sum_cons, Nat.add_mul,
            Nat.one_mul] at hrest ⊢
          omega

/-- The members of an object are as long as this at least, and longer if a name needs an escape. -/
lemma length_members {mems : List Member}
    (hvalue : ∀ mem ∈ mems, mem.behindColon ++ (mem.value ++ mem.behind) = val) :
    let names := mems.map fun mem => denoted (jsonUnits mem.key)
    let texts := (mems.map fun mem => mem.text.length).sum
    (names.map List.length).sum + mems.length * (val.length + 3) < texts ∨
      (names.map List.length).sum + mems.length * (val.length + 3) ≤ texts ∧
        ∀ name ∈ names, name.all isPlain = true := by
  induction mems with
  | nil => exact .inr ⟨by simp, fun name h => absurd h List.not_mem_nil⟩
  | cons mem mems ih =>
      have hrest := ih fun m hm => hvalue m (List.mem_cons_of_mem mem hm)
      have hlength : mem.key.length + 3 + val.length ≤ mem.text.length := by
        rw [← hvalue mem List.mem_cons_self, Member.text, Member.front]
        simp only [List.length_append, List.length_cons]
        omega
      simp only [List.map_cons, List.sum_cons, List.length_cons, Nat.add_mul, Nat.one_mul,
        List.forall_mem_cons] at hrest ⊢
      rcases length_denoted_jsonUnits mem.isStringBody_key with hlt | ⟨hplain, heq⟩
      · rcases hrest with hrest | ⟨hrest, -⟩
        · exact .inl (by omega)
        · exact .inl (by omega)
      · rw [heq]
        rcases hrest with hrest | ⟨hrest, hall⟩
        · exact .inl (by omega)
        · exact .inr ⟨by omega, hplain, hall⟩

lemma head?_membersText (mems : List Member) : (membersText mems).head? ≠ some 44 := by
  have hfront : ∀ (mem : Member) (rest : Bytes), (mem.text ++ rest).head? ≠ some 44 := by
    intro mem rest
    cases hbefore : mem.before with
    | nil => simp [Member.text, Member.front, hbefore]
    | cons c before =>
        have hspace := mem.isWs_before c (hbefore ▸ List.mem_cons_self)
        simp only [Member.text, Member.front, hbefore, List.cons_append, List.head?_cons]
        rintro ⟨⟩
        rcases hspace with h | h | h | h
        all_goals cases h
  cases mems with
  | nil =>
      intro h
      cases h
  | cons mem mems =>
      cases mems with
      | nil =>
          have hone := hfront mem []
          rwa [List.append_nil] at hone
      | cons next mems => exact hfront mem _

/-- A member with the state as its value. -/
lemma exists_member {key : Bytes} (hplain : key.all isPlain = true) (hval : IsJsonText val) :
    ∃ mem : Member, mem.text = memberText val key ∧ denoted (jsonUnits mem.key) = key ∧
      mem.behindColon ++ (mem.value ++ mem.behind) = val := by
  obtain ⟨objects, arrays, before, value, behind, hbefore, hvalue, hbehind, rfl⟩ := hval
  let mem : Member :=
    { before := []
      key := key
      beforeColon := []
      behindColon := before
      value := value
      behind := behind
      objects := objects
      arrays := arrays
      isWs_before := isWs_nil
      isStringBody_key := isStringBody_of_plain hplain
      isWs_beforeColon := isWs_nil
      isWs_behindColon := hbefore
      isJson_value := hvalue
      isWs_behind := hbehind }
  refine ⟨mem, ?_, denoted_of_plain hplain, rfl⟩
  simp only [mem, Member.text, Member.front, memberText, List.append_assoc, List.nil_append,
    List.cons_append]

/-- What is written is an object, if the names are plain. -/
lemma mapsNames_memberTexts (hval : IsJsonText val) (hplain : ∀ name ∈ names, name.all isPlain = true) :
    MapsNames names val ([123] ++ memberTexts val names ++ [125]) := by
  induction names using List.reverseRecOn with
  | nil => exact ⟨[], rfl, rfl, fun mem h => absurd h List.not_mem_nil⟩
  | append_singleton names name ih =>
      obtain ⟨mems, htext, hkeys, hvalues⟩ := ih fun n hn => hplain n (List.mem_append_left _ hn)
      obtain ⟨mem, hmem, hkey, hvalue⟩ := exists_member
        (hplain name (List.mem_append_right _ (List.mem_singleton_self name))) hval
      have hmembers : memberTexts val names = membersText mems := by
        simpa [objectText] using htext
      refine ⟨mems ++ [mem], ?_, ?_, ?_⟩
      · rw [objectText, membersText_concat, hmem, ← hmembers]
        by_cases hnil : names = []
        · have hnone : mems = [] := by simpa [hnil] using hkeys
          rw [if_pos hnone, hnil]
          simp [memberTexts]
        · have hsome : mems ≠ [] := by
            rintro rfl
            exact hnil hkeys.symm
          rw [if_neg hsome, memberTexts_concat hnil]
          rfl
      · rw [List.map_append, hkeys, List.map_singleton, hkey]
      · intro m hm
        rcases List.mem_append.mp hm with hm | hm
        · exact hvalues m hm
        · rw [List.mem_singleton.mp hm]
          exact hvalue

end Objects

/-! ## The size -/

lemma getLast?_isJson {objects arrays : Nat} {t : Bytes} (h : IsJson .value objects arrays t) :
    t.getLast? ≠ some 44 := by
  cases h with
  | scalar h => exact fun hlast => (h.isScalarByte 44 (List.mem_of_getLast? hlast)).2.2.1 rfl
  | string h =>
      rw [← List.cons_append, List.getLast?_concat]
      decide
  | noElements h =>
      rw [← List.cons_append, List.getLast?_concat]
      decide
  | array h =>
      rw [← List.cons_append, List.getLast?_concat]
      decide
  | noMembers h =>
      rw [← List.cons_append, List.getLast?_concat]
      decide
  | object h =>
      rw [← List.cons_append, List.getLast?_concat]
      decide

lemma IsWs.getLast?_ne {t : Bytes} (h : IsWs t) : t.getLast? ≠ some 44 := by
  intro hlast
  rcases h 44 (List.mem_of_getLast? hlast) with hc | hc | hc | hc
  all_goals cases hc

/-- A state does not end with a comma. -/
lemma StateText.getLast?_ne (s : StateText) : s.text.getLast? ≠ some 44 := by
  obtain ⟨objects, arrays, before, value, behind, hbefore, hvalue, hbehind, htext⟩ := s.isJsonText
  rw [htext, List.getLast?_append, List.getLast?_append]
  intro hlast
  rcases Option.or_eq_some_iff.mp hlast with hlast | ⟨-, hlast⟩
  · rcases Option.or_eq_some_iff.mp hlast with hlast | ⟨-, hlast⟩
    · exact IsWs.getLast?_ne hbehind hlast
    · exact getLast?_isJson hvalue hlast
  · exact IsWs.getLast?_ne hbefore hlast

lemma listTotal_eq (list : Option CText) : listTotal list = (listElements list).length := by
  cases list with
  | none => rfl
  | some list => exact (length_splitOn 44 list.text).symm

lemma listKeysLen_cases (list : Option CText) :
    (listElements list).length = 0 ∧ ((listElements list).map List.length).sum = 0 ∧
        listKeysLen list = 0 ∨ 1 ≤ (listElements list).length ∧
      listKeysLen list + 2 =
        ((listElements list).map List.length).sum + 5 * (listElements list).length := by
  cases list with
  | none => exact .inl ⟨rfl, rfl, rfl⟩
  | some list =>
      have hlength := length_splitOn 44 list.text
      have hsum := sum_length_splitOn 44 list.text
      refine .inr ?_
      rw [listElements, listKeysLen]
      omega

section Calls

variable {memory : (n : Nat) → CharArray n} {old : Option StateString} {a : AdjustArgs}

/-- All the names of a call. -/
def stateNames (a : AdjustArgs) : List Bytes := listNames a.channel ++ listNames a.channelGroup

/-- The channels that are passed over, if any, and what is left. -/
lemma stateNames_eq (a : AdjustArgs) : ∃ passed,
    stateNames a = passed ++ (stateElements a).filter (· ≠ []) ∧ (passed = [] ↔
      ∀ list, a.channel = some list → list.text.head? = some 44 → listNames a.channel = []) := by
  by_cases hskip : (a.channel.any fun list => list.text.head? == some 44) = true
  · refine ⟨listNames a.channel, ?_, ?_⟩
    · rw [stateElements, channelElements, if_pos hskip, List.nil_append]
      rfl
    · obtain ⟨list, hlist, hhead⟩ := (Option.any_eq_true _ _).mp hskip
      exact ⟨fun h _ _ _ => h, fun h => h list hlist (beq_iff_eq.mp hhead)⟩
  · refine ⟨[], ?_, iff_of_true rfl fun list hlist hhead => ?_⟩
    · rw [stateElements, channelElements, if_neg hskip, List.filter_append]
      rfl
    · rw [hlist, Option.any_some, hhead, beq_self_eq_true] at hskip
      exact absurd rfl hskip

lemma oneOfEach_iff : OneOfEach a ↔ (listElements a.channel).length = 1 ∧
    (listElements a.channelGroup).length = 1 ∧ (stateNames a).length = 2 := by
  constructor
  · rintro ⟨channel, group, hchannel, hgroup, hchannels, hgroups⟩
    rw [stateNames, listNames, listNames, hchannels, hgroups,
      List.filter_cons_of_pos (by simpa using hchannel),
      List.filter_cons_of_pos (by simpa using hgroup)]
    exact ⟨rfl, rfl, rfl⟩
  · rintro ⟨hchannels, hgroups, hnames⟩
    obtain ⟨channel, hchannels⟩ := List.length_eq_one_iff.mp hchannels
    obtain ⟨group, hgroups⟩ := List.length_eq_one_iff.mp hgroups
    rw [stateNames, listNames, listNames, hchannels, hgroups, List.length_append] at hnames
    refine ⟨channel, group, ?_, ?_, hchannels, hgroups⟩
    · rintro rfl
      have hnone : ([[]].filter fun e : Bytes => decide (e ≠ [])).length = 0 := rfl
      have hgroup := List.length_filter_le (fun e : Bytes => decide (e ≠ [])) [group]
      rw [List.length_singleton] at hgroup
      omega
    · rintro rfl
      have hnone : ([[]].filter fun e : Bytes => decide (e ≠ [])).length = 0 := rfl
      have hchannel := List.length_filter_le (fun e : Bytes => decide (e ≠ [])) [channel]
      rw [List.length_singleton] at hchannel
      omega

/-- **The size.**  It is enough for all the names but for one channel and one group. -/
lemma length_stateText (hnames : stateNames a = (stateElements a).filter (· ≠ []))
    (hfirst : (stateElements a).head? = some [] → stateNames a = []) :
    (OneOfEach a → (stateText a).length = stateSize a) ∧
      (¬ OneOfEach a → (stateText a).length < stateSize a) := by
  have htext : stateText a = [123] ++ memberTexts a.state.text (stateNames a) ++ [125] := by
    rw [stateText, trimmed_elementsText_zero a.state.getLast?_ne (hnames ▸ hfirst), hnames]
  have hsum : ((stateNames a).map List.length).sum =
      ((listElements a.channel).map List.length).sum +
        ((listElements a.channelGroup).map List.length).sum := by
    rw [stateNames, List.map_append, List.sum_append, listNames, listNames,
      sum_length_filter_ne_nil, sum_length_filter_ne_nil]
  have hcount : (stateNames a).length ≤
      (listElements a.channel).length + (listElements a.channelGroup).length := by
    rw [stateNames, List.length_append]
    exact Nat.add_le_add (List.length_filter_le _ _) (List.length_filter_le _ _)
  have hchannel := listKeysLen_cases a.channel
  have hgroup := listKeysLen_cases a.channelGroup
  have hmul := Nat.mul_le_mul_right a.state.text.length hcount
  rw [oneOfEach_iff, htext, stateSize, listTotal_eq, listTotal_eq, List.length_append,
    List.length_append, List.length_singleton, List.length_singleton]
  by_cases hnil : stateNames a = []
  · rw [hnil]
    refine ⟨fun h => absurd h.2.2 (by decide), fun _ => ?_⟩
    rw [memberTexts, List.map_nil, List.intercalate_nil, List.length_nil]
    omega
  · have hlength := @length_memberTexts a.state.text _ hnil
    rw [Nat.mul_add, hsum] at hlength
    constructor
    · rintro ⟨hone, hother, htwo⟩
      rw [htwo] at hlength
      rw [hone] at hchannel
      rw [hother] at hgroup
      rw [hone, hother]
      omega
    · intro hmore
      omega

lemma zero_not_mem_elementsText {val front : Bytes} {cnt : Nat} {elements : List Bytes}
    (hval : 0 ∉ val) (hfront : 0 ∉ front) (helements : ∀ e ∈ elements, 0 ∉ e) :
    0 ∉ elementsText val cnt front elements := by
  induction elements generalizing cnt front with
  | nil => exact hfront
  | cons element elements ih =>
      obtain ⟨helement, hrest⟩ := List.forall_mem_cons.mp helements
      refine ih ?_ hrest
      rw [elementText, List.mem_append, List.mem_append, not_or, not_or]
      refine ⟨hfront, ?_, ?_⟩
      · split
        · decide
        · exact List.not_mem_nil
      · split
        · exact List.not_mem_nil
        · simp [memberText, helement, hval]

lemma zero_not_mem_listElements (list : Option CText) : ∀ e ∈ listElements list, 0 ∉ e := by
  cases list with
  | none => exact fun e he => absurd he List.not_mem_nil
  | some list => exact fun e he hzero => list.zero_not_mem (mem_splitOn he hzero).2

lemma zero_not_mem_stateText (a : AdjustArgs) : 0 ∉ stateText a := by
  have helements : ∀ e ∈ stateElements a, 0 ∉ e := by
    intro e he
    rw [stateElements, channelElements] at he
    rcases List.mem_append.mp he with he | he
    · split at he
      · exact absurd he List.not_mem_nil
      · exact zero_not_mem_listElements _ e he
    · exact zero_not_mem_listElements _ e he
  have htext := @zero_not_mem_elementsText a.state.text [123] 0 (stateElements a)
    (zero_not_mem_of_isJsonText a.state.isJsonText) (by decide) helements
  rw [stateText, List.mem_append, not_or, trimmed]
  refine ⟨?_, by decide⟩
  split
  · exact fun hzero => htext (List.mem_of_mem_dropLast hzero)
  · exact htext

/-- A buffer that is not too small is as long as the size says, or longer by a byte at least. -/
lemma size_stateBuffer (memory : (n : Nat) → CharArray n) (old : Option StateString) (size : Nat) :
    (stateBuffer memory old size).size = size ∧ (¬ ∃ s, old = some s ∧ size ≤ s.strlen) ∨
      size < (stateBuffer memory old size).size ∧ ∃ s, old = some s ∧ size ≤ s.strlen := by
  cases old with
  | none => exact .inl ⟨rfl, nofun⟩
  | some s =>
      rw [stateBuffer]
      split
      · rename_i hlt
        refine .inl ⟨rfl, ?_⟩
        rintro ⟨t, ⟨⟩, hle⟩
        omega
      · rename_i hge
        have hstring := CharArray.length_string (CharArray.string_eq s.terminated)
        rw [← StateString.strlen] at hstring
        exact .inr ⟨by omega, s, rfl, Nat.le_of_not_lt hge⟩

/-- What is written is an object with these names only if it is the one that it should be. -/
lemma mapsNames_stateText (h : MapsNames (stateNames a) a.state.text (stateText a)) :
    stateNames a = (stateElements a).filter (· ≠ []) ∧
      ((stateElements a).head? = some [] → stateNames a = []) ∧
      ∀ name ∈ stateNames a, name.all isPlain = true := by
  obtain ⟨mems, htext, hkeys, hvalues⟩ := h
  obtain ⟨passed, hnames, -⟩ := stateNames_eq a
  have hfirst : (stateElements a).head? = some [] → (stateElements a).filter (· ≠ []) = [] := by
    intro hhead
    by_contra hsome
    obtain ⟨name, hname⟩ := List.exists_mem_of_ne_nil _ hsome
    obtain ⟨elements, helements⟩ := List.head?_eq_some_iff.mp hhead
    rw [helements, List.filter_cons_of_neg (by simp)] at hname
    have hmem := List.mem_filter.mp hname
    obtain ⟨rest, hcomma⟩ := @comma_of_first_empty a.state.text _ _ hmem.1 (by simpa using hmem.2)
    rw [stateText, helements, ← hcomma] at htext
    have htail := congrArg (fun t : Bytes => t.tail.head?) htext
    have hmembers : (membersText mems ++ [125]).head? ≠ some 44 := by
      rw [List.head?_append]
      intro hhead
      rcases Option.or_eq_some_iff.mp hhead with hhead | ⟨-, hhead⟩
      · exact head?_membersText mems hhead
      · cases hhead
    exact hmembers htail.symm
  have htrimmed : stateText a =
      [123] ++ memberTexts a.state.text ((stateElements a).filter (· ≠ [])) ++ [125] := by
    rw [stateText, trimmed_elementsText_zero a.state.getLast?_ne hfirst]
  have hlength : (memberTexts a.state.text ((stateElements a).filter (· ≠ []))).length =
      (membersText mems).length := by
    have hboth := congrArg List.length (htrimmed.symm.trans htext)
    simp only [objectText, List.length_append, List.length_cons, List.length_nil] at hboth
    omega
  -- the texts are equally long, so that there are no more members than elements and no escapes
  have hmembers := length_members hvalues
  simp only [hkeys, hnames, List.map_append, List.sum_append] at hmembers
  have hcount : mems.length = passed.length + ((stateElements a).filter (· ≠ [])).length := by
    rw [← List.length_append, ← hnames, ← hkeys, List.length_map]
  rw [hcount, Nat.add_mul] at hmembers
  have hroom : passed.length ≤ passed.length * (a.state.text.length + 3) :=
    Nat.le_mul_of_pos_right _ (Nat.succ_pos _)
  have hnone : passed = [] ∧ ∀ name ∈ stateNames a, name.all isPlain = true := by
    by_cases hmems : mems = []
    · rw [hmems, List.length_nil] at hcount
      have hpassed := List.length_eq_zero_iff.mp (Nat.eq_zero_of_add_eq_zero hcount.symm).1
      rw [← hkeys, hmems]
      exact ⟨hpassed, fun name h => absurd h List.not_mem_nil⟩
    · have htexts := length_membersText hmems
      have hpos := List.length_pos_iff.mpr hmems
      have hsum : (memberTexts a.state.text ((stateElements a).filter (· ≠ []))).length + 1 ≤
          max 1 ((((stateElements a).filter (· ≠ [])).map List.length).sum +
            ((stateElements a).filter (· ≠ [])).length * (a.state.text.length + 3) +
            ((stateElements a).filter (· ≠ [])).length) := by
        by_cases hnil : (stateElements a).filter (· ≠ []) = []
        · rw [hnil]
          exact Nat.le_max_left _ _
        · refine (Nat.le_max_right _ _).trans' ?_
          rw [length_memberTexts hnil, Nat.mul_add, Nat.mul_add]
          omega
      rcases hmembers with hlt | ⟨hle, hplain⟩
      · omega
      · refine ⟨List.length_eq_zero_iff.mp ?_, hnames ▸ hplain⟩
        omega
  refine ⟨by rw [hnames, hnone.1, List.nil_append], fun hhead => ?_, hnone.2⟩
  rw [hnames, hnone.1, List.nil_append, hfirst hhead]

/-- **The state.** -/
lemma adjustsState_iff : AdjustsState memory old a ↔ StateFits old a := by
  have hbuffer := size_stateBuffer memory old (stateSize a)
  constructor
  · rintro ⟨buffer, text, hcall, htext, hmaps⟩
    have hsize : stateSize a < 2 ^ 31 := by
      by_contra hlarge
      rw [pbccAdjustState, asInt, if_neg hlarge] at hcall
      cases hcall
    have hcases := @pbccAdjustState_cases memory old a hsize
    split at hcases
    · rename_i hroom
      obtain ⟨written, hwritten, rest, hbytes⟩ := hcases
      rw [hcall] at hwritten
      cases hwritten
      rw [List.append_assoc, List.singleton_append] at hbytes
      rw [CharArray.string_of_bytes hbytes.symm (zero_not_mem_stateText a)] at htext
      cases htext
      obtain ⟨hnames, hfirst, hplain⟩ := mapsNames_stateText hmaps
      obtain ⟨passed, hpassed, hskip⟩ := stateNames_eq a
      rw [hnames, List.self_eq_append_left] at hpassed
      refine ⟨hsize, hplain, hskip.mp hpassed, hfirst, fun hone => ?_⟩
      have hlength := (length_stateText hnames hfirst).1 hone
      rcases hbuffer with ⟨heq, -⟩ | ⟨-, hspare⟩
      · omega
      · exact hspare
    · rw [hcall] at hcases
      cases hcases
  · intro h
    obtain ⟨passed, hpassed, hskip⟩ := stateNames_eq a
    rw [hskip.mpr h.channels, List.nil_append] at hpassed
    have hlength := length_stateText hpassed h.first
    have hroom : (stateText a).length < (stateBuffer memory old (stateSize a)).size := by
      by_cases hone : OneOfEach a
      · have heq := hlength.1 hone
        rcases hbuffer with ⟨-, hnone⟩ | ⟨hlt, -⟩
        · exact absurd (h.spare hone) hnone
        · omega
      · have hlt := hlength.2 hone
        rcases hbuffer with ⟨heq, -⟩ | ⟨hlt', -⟩
        · omega
        · omega
    have hcases := @pbccAdjustState_cases memory old a h.size
    rw [if_pos hroom] at hcases
    obtain ⟨buffer, hcall, rest, hbytes⟩ := hcases
    rw [List.append_assoc, List.singleton_append] at hbytes
    refine ⟨buffer, stateText a, hcall,
      CharArray.string_of_bytes hbytes.symm (zero_not_mem_stateText a), ?_⟩
    have htext : stateText a = [123] ++ memberTexts a.state.text (stateNames a) ++ [125] := by
      rw [stateText, trimmed_elementsText_zero a.state.getLast?_ne (hpassed ▸ h.first), hpassed]
    rw [htext]
    exact mapsNames_memberTexts a.state.isJsonText h.plain

end Calls

/-! ## When the state is right -/

/-- The state is right exactly when the size is an `int`, the names need no escapes, no channel is
    passed over, the first element is not empty, and there is a byte to spare for one channel and one
    group. -/
theorem pbcc_adjust_state_right (memory : (n : Nat) → CharArray n) (old : Option StateString)
    (a : AdjustArgs) : AdjustsState memory old a ↔ StateFits old a :=
  adjustsState_iff

lemma isJsonText_braces : IsJsonText [123, 125] :=
  ⟨1, 0, [], [123, 125], [], isWs_nil, .noMembers isWs_nil, isWs_nil, rfl⟩

/-- A channel and a group, whose state is an object without members. -/
def aChannelAndGroup : AdjustArgs where
  channel := some ⟨[97], by decide⟩
  channelGroup := some ⟨[103], by decide⟩
  state := ⟨[123, 125], isJsonText_braces⟩

/-- The zero behind the object is written outside of the memory. -/
theorem state_not_always_adjusted : ¬ ∀ (memory : (n : Nat) → CharArray n)
    (old : Option StateString) (a : AdjustArgs), AdjustsState memory old a := by
  intro h
  obtain ⟨s, hs, -⟩ := (adjustsState_iff.mp (h .blank none aChannelAndGroup)).spare
    ⟨[97], [103], List.cons_ne_nil _ _, List.cons_ne_nil _ _, rfl, rfl⟩
  cases hs

end PubNub
