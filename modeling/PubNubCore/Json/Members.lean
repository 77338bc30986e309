import PubNubCore.Json.Scanning

/-!
# Finding a member of a well formed object

`pbjson_get_object_value` on an object of the grammar.  What is to be found is the value of the
first member whose key is the name, as both are written; where there is none the answer is that
there is none.

Two things are counted in integers that may be too small.  The length of the name is kept in an
`unsigned`, so that of a name of four gigabytes or more only the front is looked for, if anything
(`NameFits`).  The levels of objects and arrays are `int`s (`NestingFits`).
-/

namespace PubNub

open JsonText

/-! ## One member -/

/-- What the levels of `pbjson_find_end_complex` count. -/
def NestingFits (mem : Member) : Prop := mem.objects < 2 ^ 31 ∧ mem.arrays < 2 ^ 31

section Heads

variable {x y : Nat} {t u : Bytes}

/-- A value begins with a byte that is no whitespace. -/
lemma isJson_value_head (h : IsJson .value x y t) : ∃ c u, t = c :: u ∧ ¬ IsSpace c := by
  cases h with
  | scalar h =>
      cases t with
      | nil => exact absurd rfl h.ne_nil
      | cons c t =>
          have hc := (IsScalarByte.not_endsScalar (h.isScalarByte c List.mem_cons_self)).1
          exact ⟨c, t, rfl, fun hspace => hc (.inl hspace)⟩
  | string _ => exact ⟨34, _, rfl, by simp [IsSpace]⟩
  | noElements _ => exact ⟨91, _, rfl, by simp [IsSpace]⟩
  | array _ => exact ⟨91, _, rfl, by simp [IsSpace]⟩
  | noMembers _ => exact ⟨123, _, rfl, by simp [IsSpace]⟩
  | object _ => exact ⟨123, _, rfl, by simp [IsSpace]⟩

/-- It ends with a byte that is no NUL. -/
lemma isJson_value_last (h : IsJson .value x y t) : ∃ u c, t = u ++ [c] ∧ c ≠ 0 := by
  cases h with
  | scalar h =>
      refine ⟨t.dropLast, t.getLast h.ne_nil, (List.dropLast_append_getLast h.ne_nil).symm, ?_⟩
      exact (IsScalarByte.not_endsScalar (h.isScalarByte _ (List.getLast_mem h.ne_nil))).2
  | string _ => exact ⟨34 :: _, 34, rfl, by decide⟩
  | noElements _ => exact ⟨91 :: _, 93, rfl, by decide⟩
  | array _ => exact ⟨91 :: _, 93, rfl, by decide⟩
  | noMembers _ => exact ⟨123 :: _, 125, rfl, by decide⟩
  | object _ => exact ⟨123 :: _, 125, rfl, by decide⟩

end Heads

section OneMember

variable {m : Memory} {stop s : Int} {mem : Member} {d : UInt8}

lemma length_front : (mem.front.length : Int) = mem.before.length + 1 + mem.key.length + 1 +
    mem.beforeColon.length + 1 + mem.behindColon.length := by
  simp only [Member.front, List.length_append, List.length_cons]
  omega

lemma length_text : (mem.text.length : Int) =
    mem.front.length + mem.value.length + mem.behind.length := by
  simp only [Member.text, List.length_append]
  omega

/-- What lies behind `s`, up to the value. -/
lemma member_front_reads (hr : m.Reads (s + 1) (mem.front ++ mem.value))
    (he : s + 1 + mem.front.length + mem.value.length ≤ stop) :
    HasColon m stop s ∧ m.text (keyPlace m stop s + 1) (keyEndPlace m stop s) = mem.key ∧
      valuePlace m stop s = s + 1 + mem.front.length := by
  have hlen : (mem.front.length : Int) = _ := length_front
  obtain ⟨c, t, hvalue, hspace⟩ := isJson_value_head mem.isJson_value
  have hpos : 0 < mem.value.length := by simp [hvalue]
  simp only [Member.front, List.append_assoc, List.cons_append, Memory.reads_append,
    liesAt_cons] at hr
  obtain ⟨hbefore, hquote, hkey, hquoteEnd, hbeforeColon, hcolon, hbehindColon, hrest⟩ := hr
  have hkeyPlace : keyPlace m stop s = s + 1 + mem.before.length :=
    pbjsonSkipWhitespace_reads mem.isWs_before hbefore (by omega) (by simp [hquote, IsSpace])
  have hkeyEnd : keyEndPlace m stop s = s + 1 + mem.before.length + 1 + mem.key.length := by
    rw [keyEndPlace, hkeyPlace]
    exact pbjsonFindEndString_reads mem.isStringBody_key hkey (by omega) hquoteEnd
  have hcolonPlace : colonPlace m stop s = s + 1 + mem.before.length + 1 + mem.key.length + 1 +
      mem.beforeColon.length := by
    rw [colonPlace, hkeyEnd]
    exact pbjsonSkipWhitespace_reads mem.isWs_beforeColon hbeforeColon (by omega)
      (by simp [hcolon, IsSpace])
  have hvaluePlace : valuePlace m stop s = s + 1 + mem.front.length := by
    rw [hvalue] at hrest
    rw [valuePlace, hcolonPlace]
    refine (pbjsonSkipWhitespace_reads mem.isWs_behindColon hbehindColon (by omega) ?_).trans ?_
    · rw [hrest.1]
      exact hspace
    · omega
  refine ⟨⟨by omega, by omega, ?_, by omega, ?_, by omega, ?_⟩, ?_, hvaluePlace⟩
  · rw [hkeyPlace, hquote]
  · rw [hkeyEnd, hquoteEnd]
  · rw [hcolonPlace, hcolon]
  · rw [hkeyPlace, hkeyEnd]
    exact Memory.text_of_reads hkey

lemma endsScalar_of_spaced {p : Int} {t : Bytes} (ht : IsWs t) (hd : d = 44 ∨ d = 125)
    (hr : m.Reads p (t ++ [d])) : EndsScalar (m.byte p) := by
  cases t with
  | nil =>
      rw [hr.1, EndsScalar]
      tauto
  | cons c t =>
      rw [hr.1]
      exact .inl (ht c List.mem_cons_self)

/-- The member behind `s`: its key, its value and what follows. -/
lemma member_reads (hr : m.Reads (s + 1) (mem.text ++ [d])) (hd : d = 44 ∨ d = 125)
    (he : s + 1 + mem.text.length < stop) :
    HasColon m stop s ∧ m.text (keyPlace m stop s + 1) (keyEndPlace m stop s) = mem.key ∧
    valuePlace m stop s = s + 1 + mem.front.length ∧
    (elementOverflows m (valuePlace m stop s) stop = true ↔ ¬ NestingFits mem) ∧
      (NestingFits mem →
        valueEndPlace m stop s = s + mem.front.length + mem.value.length ∧
        m.byte (valueEndPlace m stop s) ≠ 0 ∧
        separatorPlace m stop s = s + 1 + mem.text.length ∧
        m.byte (separatorPlace m stop s) = d) := by
  have hlen : (mem.text.length : Int) = _ := length_text
  have hfront : m.Reads (s + 1) (mem.front ++ mem.value) := by
    rw [Member.text, List.append_assoc, List.append_assoc, ← List.append_assoc] at hr
    exact (Memory.reads_append.mp hr).1
  have hstop : s + 1 + mem.front.length + mem.value.length ≤ stop := by omega
  obtain ⟨hcolon, hkey, hvalue⟩ := member_front_reads hfront hstop
  simp only [Member.text, List.append_assoc, Memory.reads_append, liesAt_cons] at hr
  obtain ⟨-, hreads, hbehind, hbyte, -⟩ := hr
  have hends : EndsScalar (m.byte (s + 1 + mem.front.length + mem.value.length)) :=
    endsScalar_of_spaced mem.isWs_behind hd (Memory.reads_append.mpr ⟨hbehind, hbyte, trivial⟩)
  obtain ⟨hover, hend⟩ :=
    pbjsonFindEndElement_reads (e := stop) mem.isJson_value hreads (by omega) hends
  rw [← hvalue] at hover
  refine ⟨hcolon, hkey, hvalue, hover, fun hfits => ?_⟩
  have hvalueEnd : valueEndPlace m stop s = s + mem.front.length + mem.value.length := by
    rw [valueEndPlace, hvalue, hend hfits]
    omega
  have hseparator : separatorPlace m stop s =
      s + 1 + mem.front.length + mem.value.length + mem.behind.length := by
    have hplace : s + mem.front.length + mem.value.length + 1 =
        s + 1 + mem.front.length + mem.value.length := by omega
    rw [separatorPlace, hvalueEnd, hplace]
    refine pbjsonSkipWhitespace_reads mem.isWs_behind hbehind (by omega) ?_
    rw [hbyte]
    rcases hd with rfl | rfl <;> simp [IsSpace]
  refine ⟨hvalueEnd, ?_, by omega, ?_⟩
  · obtain ⟨t, c, hvalueText, hc⟩ := isJson_value_last mem.isJson_value
    rw [hvalueText] at hreads
    have hplace : s + mem.front.length + mem.value.length =
        s + 1 + mem.front.length + t.length := by
      rw [hvalueText, List.length_append, List.length_singleton]
      push_cast
      omega
    rw [hvalueEnd, hplace, (Memory.reads_append.mp hreads).2.1]
    exact hc
  · rw [hseparator, hbyte]

end OneMember

/-! ## The loop over the members -/

/-- The value of the first member with a key, when the first member lies at a place. -/
def valueOf (name : Bytes) : List Member → Int → Option PbjsonElem
  | [], _ => none
  | mem :: mems, p =>
      if mem.key = name then
        some ⟨p + mem.front.length, p + mem.front.length + mem.value.length⟩
      else valueOf name mems (p + mem.text.length + 1)

/-- The members up to the first with a key, or all. -/
def reached (name : Bytes) : List Member → List Member
  | [] => []
  | mem :: mems => if mem.key = name then [mem] else mem :: reached name mems

/-- What there is to answer. -/
def answer : Option PbjsonElem → Except PbjsonObjectNameParseError PbjsonElem
  | some found => .ok found
  | none => .error .keyNotFound

/-- The loop comes to a member in whose value a level overflows. -/
inductive OverflowsBehind (m : Memory) (stop : Int) (name : Bytes) : Int → Prop
  | here {s : Int} (colon : HasColon m stop s)
      (overflows : elementOverflows m (valuePlace m stop s) stop = true) :
      OverflowsBehind m stop name s
  | next {s : Int} (colon : HasColon m stop s) (goesOn : GoesOn m stop name s)
      (behind : OverflowsBehind m stop name (separatorPlace m stop s)) :
      OverflowsBehind m stop name s

section Loop

variable {m : Memory} {stop s : Int} {mem : Member} {mems : List Member} {name : Bytes} {n : Nat}

/-- The last member. -/
lemma memberFrom_last (hr : m.Reads (s + 1) (mem.text ++ [125]))
    (he : s + 1 + mem.text.length < stop) (hfits : NestingFits mem) :
    memberFrom m stop name (n + 1) s = answer (valueOf name [mem] (s + 1)) := by
  obtain ⟨hcolon, hkey, hvalue, -, hend⟩ := member_reads hr (.inr rfl) he
  obtain ⟨hvalueEnd, hnul, hseparator, hbyte⟩ := hend hfits
  have hlen : (mem.text.length : Int) = _ := length_text
  have hcomplete : ¬ (valueEndPlace m stop s = stop ∨ m.byte (valueEndPlace m stop s) = 0) := by
    rintro (h | h)
    · omega
    · exact hnul h
  rw [hcolon.memberFrom, if_neg hcomplete, hkey, valueOf]
  by_cases hname : mem.key = name
  · rw [if_pos hname, if_pos hname, hvalue, hvalueEnd, answer]
    congr 2
    omega
  · rw [if_neg hname, if_neg hname, hbyte, if_neg (by decide), if_neg (by decide),
      if_pos (by omega)]
    rfl

/-- A member with others behind it. -/
lemma memberFrom_comma (hr : m.Reads (s + 1) (mem.text ++ [44]))
    (he : s + 1 + mem.text.length < stop) (hfits : NestingFits mem) :
    memberFrom m stop name (n + 1) s =
      if mem.key = name then
        .ok ⟨s + 1 + mem.front.length, s + 1 + mem.front.length + mem.value.length⟩
      else memberFrom m stop name n (s + 1 + mem.text.length) := by
  obtain ⟨hcolon, hkey, hvalue, -, hend⟩ := member_reads hr (.inl rfl) he
  obtain ⟨hvalueEnd, hnul, hseparator, hbyte⟩ := hend hfits
  have hlen : (mem.text.length : Int) = _ := length_text
  have hcomplete : ¬ (valueEndPlace m stop s = stop ∨ m.byte (valueEndPlace m stop s) = 0) := by
    rintro (h | h)
    · omega
    · exact hnul h
  rw [hcolon.memberFrom, if_neg hcomplete, hkey]
  by_cases hname : mem.key = name
  · rw [if_pos hname, if_pos hname, hvalue, hvalueEnd]
    congr 2
    omega
  · rw [if_neg hname, if_neg hname, if_pos hbyte, hseparator]

lemma membersText_cons (h : mems ≠ []) :
    membersText (mem :: mems) = mem.text ++ 44 :: membersText mems := by
  cases mems with
  | nil => exact absurd rfl h
  | cons mem' mems => rfl

/-- What lies behind `s` is a member and the comma behind it, and then the others. -/
lemma reads_members_cons (hmems : mems ≠ [])
    (hr : m.Reads (s + 1) (membersText (mem :: mems) ++ [125])) :
    m.Reads (s + 1) (mem.text ++ [44]) ∧
      m.Reads (s + 1 + mem.text.length + 1) (membersText mems ++ [125]) := by
  rw [membersText_cons hmems, List.append_assoc, Memory.reads_append] at hr
  obtain ⟨htext, hcomma, hrest⟩ := hr
  exact ⟨Memory.reads_append.mpr ⟨htext, hcomma, trivial⟩, hrest⟩

lemma mem_reached (name : Bytes) (mem : Member) (mems : List Member) :
    mem ∈ reached name (mem :: mems) := by
  rw [reached]
  split <;> exact List.mem_cons_self

/-- **The loop** answers with the value of the first member with the key. -/
theorem memberFrom_reads (hmems : mems ≠ [])
    (hr : m.Reads (s + 1) (membersText mems ++ [125]))
    (he : s + 1 + (membersText mems).length < stop) (hn : (stop - s).toNat ≤ n)
    (hfits : ∀ mem ∈ reached name mems, NestingFits mem) :
    memberFrom m stop name n s = answer (valueOf name mems (s + 1)) := by
  induction mems generalizing s n with
  | nil => exact absurd rfl hmems
  | cons mem mems ih =>
      obtain ⟨n, rfl⟩ : ∃ k, n = k + 1 := ⟨n - 1, by omega⟩
      have hmem : NestingFits mem := hfits mem (mem_reached name mem mems)
      by_cases hlast : mems = []
      · subst hlast
        exact memberFrom_last hr he hmem
      · obtain ⟨hone, hrest⟩ := reads_members_cons hlast hr
        have hlen : ((membersText (mem :: mems)).length : Int) =
            mem.text.length + 1 + (membersText mems).length := by
          rw [membersText_cons hlast, List.length_append, List.length_cons]
          omega
        rw [memberFrom_comma hone (by omega) hmem, valueOf]
        by_cases hname : mem.key = name
        · rw [if_pos hname, if_pos hname, answer]
        · rw [if_neg hname, if_neg hname]
          rw [reached, if_neg hname, List.forall_mem_cons] at hfits
          exact ih hlast hrest (by omega) (by omega) hfits.2

lemma overflowsBehind_iff (hcolon : HasColon m stop s) : OverflowsBehind m stop name s ↔
    elementOverflows m (valuePlace m stop s) stop = true ∨
      GoesOn m stop name s ∧ OverflowsBehind m stop name (separatorPlace m stop s) := by
  constructor
  · rintro (⟨-, h⟩ | ⟨-, hgo, h⟩)
    · exact .inl h
    · exact .inr ⟨hgo, h⟩
  · rintro (h | ⟨hgo, h⟩)
    · exact .here hcolon h
    · exact .next hcolon hgo h

/-- A level overflows exactly where one of the members that are reached nests too deep. -/
theorem overflowsBehind_reads (hmems : mems ≠ [])
    (hr : m.Reads (s + 1) (membersText mems ++ [125]))
    (he : s + 1 + (membersText mems).length < stop) :
    OverflowsBehind m stop name s ↔ ∃ mem ∈ reached name mems, ¬ NestingFits mem := by
  induction mems generalizing s with
  | nil => exact absurd rfl hmems
  | cons mem mems ih =>
      by_cases hlast : mems = []
      · subst hlast
        obtain ⟨hcolon, -, -, hover, hend⟩ := member_reads hr (.inr rfl) he
        have hreached : reached name [mem] = [mem] := by
          rw [reached]
          split <;> rfl
        rw [overflowsBehind_iff hcolon, hover, hreached]
        simp only [List.mem_singleton, exists_eq_left]
        refine ⟨?_, .inl⟩
        rintro (h | ⟨hgo, -⟩)
        · exact h
        · intro hfits
          have hcomma := hgo.2.2
          rw [(hend hfits).2.2.2] at hcomma
          exact absurd hcomma (by decide)
      obtain ⟨hone, hrest⟩ := reads_members_cons hlast hr
      have hlen : ((membersText (mem :: mems)).length : Int) =
          mem.text.length + 1 + (membersText mems).length := by
        rw [membersText_cons hlast, List.length_append, List.length_cons]
        omega
      have hstop : s + 1 + mem.text.length < stop := by omega
      obtain ⟨hcolon, hkey, -, hover, hend⟩ := member_reads hone (.inl rfl) hstop
      rw [overflowsBehind_iff hcolon, hover]
      by_cases hfits : NestingFits mem
      swap
      · exact ⟨fun _ => ⟨mem, mem_reached name mem mems, hfits⟩, fun _ => .inl hfits⟩
      obtain ⟨hvalueEnd, hnul, hseparator, hbyte⟩ := hend hfits
      have hlenText : (mem.text.length : Int) = _ := length_text
      have hgo : GoesOn m stop name s ↔ mem.key ≠ name := by
        rw [GoesOn, hkey]
        refine ⟨fun h => h.2.1, fun hname => ⟨?_, hname, hbyte⟩⟩
        rintro (h | h)
        · omega
        · exact hnul h
      rw [hgo, hseparator, ih hlast hrest (by omega), reached]
      by_cases hname : mem.key = name
      · simp [hname, hfits]
      · simp [hname, hfits]

end Loop

/-! ## `pbjson_get_object_value` on an object -/

/-- The text of an object that is not empty. -/
structure ObjectText where
  lead : Bytes
  members : List Member
  trail : Bytes
  isWs_lead : IsWs lead
  isWs_trail : IsWs trail
  nonempty : members ≠ []

namespace ObjectText

def text (o : ObjectText) : Bytes := o.lead ++ 123 :: (membersText o.members ++ 125 :: o.trail)

/-- The value of the first member with a key, when the object lies at a place. -/
def valueOf (o : ObjectText) (name : Bytes) (start : Int) : Option PbjsonElem :=
  PubNub.valueOf name o.members (start + o.lead.length + 1)

end ObjectText

/-- What of the name is looked for. -/
def keptName (name : Bytes) : Bytes := name.take (name.length % 2 ^ 32)

/-- The name is kept whole; or something of it is kept, and neither that nor the name is a key. -/
def NameFits (name : Bytes) (mems : List Member) : Prop :=
  name.length < 2 ^ 32 ∨
    name.length % 2 ^ 32 ≠ 0 ∧ ∀ mem ∈ mems, mem.key ≠ keptName name ∧ mem.key ≠ name

/-- A level of brackets overflows. -/
def NestingOverflows (m : Memory) (p : PbjsonElem) (name : Bytes) : Prop :=
  name.length % 2 ^ 32 ≠ 0 ∧ m.byte (objectPlace m p) = 123 ∧
    OverflowsBehind m p.stop (keptName name) (objectPlace m p)

section Object

variable {m : Memory} {p : PbjsonElem} {o : ObjectText} {name : Bytes}

/-- What the function does where the name is not empty: it looks for what is kept of it. -/
lemma pbjsonGetObjectValue_reads (h : m.text p.start p.stop = o.text)
    (hkept : name.length % 2 ^ 32 ≠ 0) :
    (NestingOverflows m p name ↔ ∃ mem ∈ reached (keptName name) o.members, ¬ NestingFits mem) ∧
      ((∀ mem ∈ reached (keptName name) o.members, NestingFits mem) →
        pbjsonGetObjectValue m p name = answer (o.valueOf (keptName name) p.start)) := by
  have hne : o.text ≠ [] := by simp [ObjectText.text]
  obtain ⟨hreads, hstop⟩ := Memory.reads_of_text h hne
  rw [ObjectText.text, Memory.reads_append] at hreads
  obtain ⟨hlead, hbrace, hrest⟩ := hreads
  have hplace : objectPlace m p = p.start + o.lead.length := by
    refine pbjsonSkipWhitespace_reads o.isWs_lead hlead ?_ (by simp [hbrace, IsSpace])
    rw [hstop, ObjectText.text, List.length_append]
    omega
  have hmembers : m.Reads (objectPlace m p + 1) (membersText o.members ++ [125]) := by
    rw [hplace]
    obtain ⟨htext, hclose, -⟩ := Memory.reads_append.mp hrest
    exact Memory.reads_append.mpr ⟨htext, hclose, trivial⟩
  have hlt : objectPlace m p + 1 + (membersText o.members).length < p.stop := by
    rw [hplace, hstop, ObjectText.text]
    simp only [List.length_append, List.length_cons]
    omega
  rw [← hplace] at hbrace
  constructor
  · rw [NestingOverflows, overflowsBehind_reads o.nonempty hmembers hlt]
    exact ⟨fun h => h.2.2, fun h => ⟨hkept, hbrace, h⟩⟩
  · intro hfits
    rw [pbjsonGetObjectValue, ← objectPlace]
    rw [if_neg hkept, if_neg (by simp [hbrace]), ObjectText.valueOf, ← hplace]
    exact memberFrom_reads o.nonempty hmembers hlt (Nat.le_refl _) hfits

end Object

/-! ## Which names are found -/

section Names

variable {name name' : Bytes} {mems : List Member} {p : Int} {found : PbjsonElem}

lemma valueOf_eq_none : valueOf name mems p = none ↔ ∀ mem ∈ mems, mem.key ≠ name := by
  induction mems generalizing p with
  | nil => simp [valueOf]
  | cons mem mems ih =>
      rw [valueOf, List.forall_mem_cons]
      by_cases hname : mem.key = name
      · simp [hname]
      · rw [if_neg hname, ih]
        exact ⟨fun h => ⟨hname, h⟩, fun h => h.2⟩

lemma le_valueOf (h : valueOf name mems p = some found) : p ≤ found.start := by
  induction mems generalizing p with
  | nil => cases h
  | cons mem mems ih =>
      rw [valueOf] at h
      split at h
      · cases h
        dsimp only
        omega
      · have hle := ih h
        omega

/-- A value that is found behind a member is not that of the member. -/
lemma valueOf_behind_ne {mem : Member} : valueOf name mems (p + mem.text.length + 1) ≠
    some ⟨p + mem.front.length, p + mem.front.length + mem.value.length⟩ := by
  intro h
  have hle := le_valueOf h
  have hlen : (mem.text.length : Int) = _ := length_text
  dsimp only at hle
  omega

/-- Two names find the same only if they find nothing. -/
lemma valueOf_eq_valueOf_iff (hne : name' ≠ name) :
    valueOf name' mems p = valueOf name mems p ↔
      ∀ mem ∈ mems, mem.key ≠ name' ∧ mem.key ≠ name := by
  induction mems generalizing p with
  | nil => simp [valueOf]
  | cons mem mems ih =>
      rw [valueOf, valueOf, List.forall_mem_cons]
      by_cases hname' : mem.key = name'
      · have hname : mem.key ≠ name := fun h => hne (hname'.symm.trans h)
        rw [if_pos hname', if_neg hname]
        exact ⟨fun h => absurd h.symm valueOf_behind_ne, fun h => absurd hname' h.1.1⟩
      · by_cases hname : mem.key = name
        · rw [if_neg hname', if_pos hname]
          exact ⟨fun h => absurd h valueOf_behind_ne, fun h => absurd hname h.1.2⟩
        · rw [if_neg hname', if_neg hname, ih]
          exact ⟨fun h => ⟨⟨hname', hname⟩, h⟩, fun h => h.2⟩

lemma answer_injective : Function.Injective answer := by
  intro a b h
  cases a <;> cases b <;> simp_all [answer]

/-- What is found under the kept name is what is to be found under the name. -/
lemma nameFits_iff (hkept : name.length % 2 ^ 32 ≠ 0) : NameFits name mems ↔
    valueOf (keptName name) mems p = valueOf name mems p := by
  by_cases hshort : name.length < 2 ^ 32
  · have hwhole : keptName name = name := by
      rw [keptName, Nat.mod_eq_of_lt hshort, List.take_length]
    rw [hwhole]
    exact ⟨fun _ => rfl, fun _ => .inl hshort⟩
  · have hne : keptName name ≠ name := by
      intro h
      have hlen := congrArg List.length h
      have hmod := Nat.mod_lt name.length (show 2 ^ 32 > 0 by decide)
      rw [keptName, List.length_take] at hlen
      omega
    rw [valueOf_eq_valueOf_iff hne, NameFits]
    exact ⟨fun h => (h.resolve_left hshort).2, fun h => .inr ⟨hkept, h⟩⟩

end Names

/-- `{"b":1}`. -/
def smallObject : ObjectText where
  lead := []
  members := [{
    before := [], key := [98], beforeColon := [], behindColon := [], value := [49], behind := []
    objects := 0, arrays := 0
    isWs_before := by simp [IsWs]
    isStringBody_key := .plain (by decide) (by decide) (by decide) .nil
    isWs_beforeColon := by simp [IsWs]
    isWs_behindColon := by simp [IsWs]
    isJson_value := .scalar (.number ⟨[], [49], [], [], .inl rfl,
      ⟨⟨by simp, by simp [IsDigit]⟩, by simp⟩, .inl rfl, .inl rfl, rfl⟩)
    isWs_behind := by simp [IsWs] }]
  trail := []
  isWs_lead := by simp [IsWs]
  isWs_trail := by simp [IsWs]
  nonempty := by simp

end PubNub
