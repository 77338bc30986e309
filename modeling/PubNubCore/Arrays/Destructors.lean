import PubNubCore.Arrays.Sharing

/-!
# Destructors of shared elements

What every run of arrays that share elements keeps: the counter of an entry is the number of places where
it is held, and an element has one entry at most.  From this follows what an operation destroys: the
elements which were held by an array before and by none after it, each once, if the array that loses them
has a destructor.
-/

namespace PubNub

open PbArray ArraysWorld EntryStore

/-! ## Invariants -/

namespace ArraysWorld

structure Sound (w : ArraysWorld) : Prop where
  holds : ∀ a, some a ∈ w.arrays → Holds a.array a.array.contents
  exact : ExactCounts w.counters w.held
  length_eq : w.counters.length = w.values.length
  inj : ∀ e ∈ w.held, ∀ e' ∈ w.held, w.store.value e = w.store.value e' → e = e'
  value_ne : ∀ e ∈ w.held, w.store.value e ≠ 0

/-- The elements that have been destroyed are those that no array holds any more. -/
def DestroysLast (w : ArraysWorld) (destructs : Bool) (calls : List Nat) (w' : ArraysWorld) : Prop :=
  calls.Nodup ∧ ∀ v, v ∈ calls ↔ destructs = true ∧ v ∈ w.elements ∧ v ∉ w'.elements

variable {w : ArraysWorld} {a other : SharedArray} {i j : Nat}

/-- The entries of one array, and those of the others. -/
lemma perm_flatMap_none {f : Option SharedArray → List Nat} (hnone : f none = [])
    {x : Option SharedArray} : ∀ {arrays : List (Option SharedArray)} {i : Nat},
      arrays[i]? = some x → (arrays.flatMap f).Perm (f x ++ (arrays.set i none).flatMap f)
  | [], _, h => by cases h
  | y :: arrays, 0, h => by
      cases h
      rw [List.set_cons_zero, List.flatMap_cons, List.flatMap_cons, hnone, List.nil_append]
  | y :: arrays, i + 1, h => by
      rw [List.set_cons_succ, List.flatMap_cons, List.flatMap_cons]
      have ih := perm_flatMap_none hnone (i := i) h
      exact (ih.append_left (f y)).trans (List.perm_append_comm_assoc _ _ _)

lemma getElem?_of_array (hi : w.array i = some a) : w.arrays[i]? = some (some a) :=
  Option.join_eq_some_iff.mp hi

lemma perm_held (hi : w.array i = some a) :
    w.held.Perm (a.array.contents ++ w.heldBut i) :=
  perm_flatMap_none (f := entriesOf) rfl (getElem?_of_array hi)

lemma perm_held_set (hi : w.array i = some a) (x : Option SharedArray) :
    ((w.arrays.set i x).flatMap entriesOf).Perm (entriesOf x ++ w.heldBut i) := by
  obtain ⟨hlt, -⟩ := List.getElem?_eq_some_iff.mp (getElem?_of_array hi)
  have hperm := perm_flatMap_none (f := entriesOf) rfl
    (List.getElem?_set_self hlt : (w.arrays.set i x)[i]? = some x)
  rwa [List.set_set] at hperm

/-- What another array holds is held by the others. -/
lemma mem_heldBut (hij : i ≠ j) (hj : w.array j = some other) {e : Nat}
    (he : e ∈ other.array.contents) : e ∈ w.heldBut i := by
  refine List.mem_flatMap.mpr ⟨some other, ?_, he⟩
  refine List.mem_of_getElem? (i := j) ?_
  rw [List.getElem?_set_ne hij]
  exact getElem?_of_array hj

lemma mem_held (hi : w.array i = some a) {e : Nat} (he : e ∈ a.array.contents) : e ∈ w.held :=
  (perm_held hi).mem_iff.mpr (List.mem_append_left _ he)

namespace Sound

lemma holds_array (hw : Sound w) (hi : w.array i = some a) : Holds a.array a.array.contents :=
  hw.holds a (List.mem_of_getElem? (getElem?_of_array hi))

/-- Before anything has been taken out. -/
lemma releasing (hw : Sound w) (hi : w.array i = some a) (free : Bool) :
    Releasing w.values w.held (w.heldBut i) free a.array.contents w.store := by
  have hperm := perm_held hi
  refine ⟨rfl, hw.length_eq, hw.exact.perm hperm, fun e he => hperm.mem_iff.mpr he, List.nodup_nil,
    fun e => ⟨fun he => absurd he List.not_mem_nil, fun he => ?_⟩⟩
  exact absurd (hperm.mem_iff.mp he.2.1) he.2.2

/-- An array is replaced by one that holds what has been held. -/
lemma put (hw : Sound w) (hi : w.array i = some a) {x : Option SharedArray} {s : EntryStore}
    (hx : ∀ a', x = some a' → Holds a'.array a'.array.contents) (hvalues : s.values = w.values)
    (hlength : s.counters.length = w.values.length)
    (hexact : ExactCounts s.counters (entriesOf x ++ w.heldBut i))
    (hsubset : ∀ e ∈ entriesOf x ++ w.heldBut i, e ∈ w.held) : Sound (w.put i x s).2 := by
  have hperm := perm_held_set hi x
  have hheld : ∀ e ∈ (w.put i x s).2.held, e ∈ w.held := fun e he =>
    hsubset e (hperm.mem_iff.mp he)
  have hvalue : ∀ e, (w.put i x s).2.store.value e = w.store.value e := fun e => by
    rw [EntryStore.value, EntryStore.value]
    exact congrArg (fun values : List Nat => values.getD e 0) hvalues
  refine ⟨fun a' ha' => ?_, hexact.perm hperm.symm, hlength.trans (congrArg List.length hvalues.symm),
    fun e he e' he' heq => ?_, fun e he => ?_⟩
  · rcases List.mem_or_eq_of_mem_set ha' with hold | hnew
    · exact hw.holds a' hold
    · exact hx a' hnew.symm
  · rw [hvalue, hvalue] at heq
    exact hw.inj e (hheld e he) e' (hheld e' he') heq
  · rw [hvalue]
    exact hw.value_ne e (hheld e he)

/-- **What is destroyed** when entries have been taken out of an array. -/
lemma put_releasing (hw : Sound w) (hi : w.array i = some a) {x : Option SharedArray} {s : EntryStore}
    {free : Bool} (hx : ∀ a', x = some a' → Holds a'.array a'.array.contents)
    (hr : Releasing w.values w.held (w.heldBut i) free (entriesOf x) s) :
    Sound (w.put i x s).2 ∧ DestroysLast w free (w.put i x s).1 (w.put i x s).2 := by
  have hvalue : ∀ e, s.value e = w.store.value e := fun e => by
    rw [EntryStore.value, EntryStore.value, hr.values_eq]
    rfl
  have hperm := perm_held_set hi x
  have helements : ∀ v, v ∈ (w.put i x s).2.elements ↔
      ∃ e ∈ entriesOf x ++ w.heldBut i, w.store.value e = v := fun v => by
    have hmap : (w.put i x s).2.elements =
        ((w.arrays.set i x).flatMap entriesOf).map s.value := rfl
    rw [hmap, (hperm.map s.value).mem_iff, List.mem_map]
    simp only [hvalue]
  refine ⟨hw.put hi hx hr.values_eq hr.length_eq hr.exact hr.subset, ?_, fun v => ?_⟩
  · refine List.Nodup.map_on (fun e he e' he' heq => ?_) hr.nodup
    rw [hvalue, hvalue] at heq
    exact hw.inj e ((hr.freed e).mp he).2.1 e' ((hr.freed e').mp he').2.1 heq
  · rw [helements]
    constructor
    · intro hv
      obtain ⟨e, he, rfl⟩ := List.mem_map.mp hv
      obtain ⟨hfree, hheld, hnot⟩ := (hr.freed e).mp he
      rw [hvalue]
      refine ⟨hfree, List.mem_map_of_mem hheld, ?_⟩
      rintro ⟨e', he', heq⟩
      exact hnot (hw.inj e' (hr.subset e' he') e hheld heq ▸ he')
    · rintro ⟨hfree, hv, hnot⟩
      obtain ⟨e, he, rfl⟩ := List.mem_map.mp hv
      have hfreed : e ∈ s.freed := (hr.freed e).mpr ⟨hfree, he, fun hin => hnot ⟨e, hin, rfl⟩⟩
      exact List.mem_map.mpr ⟨e, hfreed, hvalue e⟩

end Sound

/-- Nothing is destroyed where no array loses an element. -/
lemma destroysLast_nil (w w' : ArraysWorld) : DestroysLast w false [] w' :=
  ⟨List.nodup_nil, fun _ => ⟨fun hv => absurd hv List.not_mem_nil, fun hv => by cases hv.1⟩⟩

end ArraysWorld

/-! ## Entries that are shared -/

/-- So many entries are put into another array. -/
lemma EntryStore.foldl_retain {entries refs : List Nat} {s : EntryStore}
    (hexact : ExactCounts s.counters refs) (hlt : ∀ e ∈ entries, e < s.counters.length) :
    ExactCounts (entries.foldl (fun s e => retain e s) s).counters (entries ++ refs) ∧
      (entries.foldl (fun s e => retain e s) s).values = s.values ∧
      (entries.foldl (fun s e => retain e s) s).freed = s.freed ∧
      (entries.foldl (fun s e => retain e s) s).counters.length = s.counters.length := by
  induction entries generalizing s refs with
  | nil => exact ⟨hexact, rfl, rfl, rfl⟩
  | cons e entries ih =>
      rw [List.forall_mem_cons] at hlt
      have hlength : (retain e s).counters.length = s.counters.length := List.length_modify _ _ _
      obtain ⟨hexact', hvalues, hfreed, hlength'⟩ := ih (s := retain e s) (hexact.share hlt.1)
        fun d hd => hlength.symm ▸ hlt.2 d hd
      exact ⟨hexact'.perm List.perm_middle, hvalues, hfreed, hlength'.trans hlength⟩

/-! ## Comparing elements -/

/-- Whether two elements count as equal. -/
def sameElement (text : Nat → Bytes) (contentType : PbarrayContentType) (v element : Nat) : Bool :=
  match contentType with
  | .generic => v == element
  | .char => text v == text element

section Comparing

variable {text : Nat → Bytes} {w : ArraysWorld} {contentType : PbarrayContentType}
  {rest l : List Nat} {free : Bool} {s : EntryStore} {element : Nat}

/-- An entry that is held can be compared, with an element that has not been destroyed. -/
lemma Releasing.isEqual_eq (hr : Releasing w.values w.held rest free l s) (hw : w.Sound)
    (hne : element ≠ 0)
    (halive : contentType = .generic ∨ ∀ d ∈ s.freed, w.store.value d ≠ element) :
    ∀ e ∈ l, isEqual text contentType element s e =
      some (sameElement text contentType (w.store.value e) element) := by
  intro e he
  have hvalue : ∀ e, s.value e = w.store.value e := fun e => by
    rw [EntryStore.value, EntryStore.value, hr.values_eq]
    rfl
  cases contentType with
  | generic =>
      rw [isEqual, hvalue]
      rfl
  | char =>
      have hheld := hr.subset e (List.mem_append_left _ he)
      have hnot : ¬ (w.store.value e = 0 ∨ element = 0 ∨
          ∃ d ∈ s.freed, w.store.value d = w.store.value e ∨ w.store.value d = element) := by
        rintro (hzero | hzero | ⟨d, hd, heq | heq⟩)
        · exact hw.value_ne e hheld hzero
        · exact hne hzero
        · obtain ⟨-, hd', hgone⟩ := (hr.freed d).mp hd
          have hsame := hw.inj d hd' e hheld heq
          exact hgone (hsame ▸ List.mem_append_left _ he)
        · exact halive.resolve_left (by decide) d hd heq
      rw [isEqual]
      simp only [hvalue]
      rw [if_neg hnot]
      rfl

end Comparing

/-! ## One step -/

variable {text : Nat → Bytes} {w : ArraysWorld} {m : Allocator}

/-- Arrays of the same entries are released in the same way. -/
lemma Releasing.of_holds {a' : PbArray Nat} {l rest : List Nat} {free : Bool} {s : EntryStore}
    (hr : Releasing w.values w.held rest free l s) (hholds : Holds a' l) :
    Releasing w.values w.held rest free a'.contents s := hholds.contents_eq.symm ▸ hr

lemma remove_step (hw : w.Sound) {i element : Nat} {all : Bool}
    (hfits : SharesFits text w (m, .remove i element all)) :
    ∃ calls w', sharedStep text m w (.remove i element all) = some (calls, w') ∧ w'.Sound ∧
      DestroysLast w (w.destructs (.remove i element all)) calls w' := by
  obtain ⟨a, hi, hguard⟩ := hfits
  have hdestructs : w.destructs (.remove i element all) = a.free := by
    rw [destructs, hi]
    rfl
  rw [sharedStep, hi, hdestructs]
  simp only [Option.bind_eq_bind, Option.bind_some]
  by_cases hzero : element = 0
  · rw [if_pos hzero]
    refine ⟨[], w, rfl, hw, List.nodup_nil, fun v => ⟨fun hv => absurd hv List.not_mem_nil, ?_⟩⟩
    exact fun hv => absurd hv.2.1 hv.2.2
  rw [if_neg hzero]
  obtain ⟨hshrink, halive⟩ := hguard hzero
  have hstart := hw.releasing hi a.free
  have hholds := hw.holds_array hi
  -- while all entries are looked at, the element is alive: what is destroyed is held nowhere
  have hclean : ∀ l s, Releasing w.values w.held (w.heldBut i) a.free l s →
      (all = false → s.freed = []) →
        a.contentType = .generic ∨ ∀ d ∈ s.freed, w.store.value d ≠ element := by
    intro l s hr hfirst
    rcases halive with hone | hgeneric | hfree | hother
    · rw [hfirst hone]
      exact .inr fun d hd => absurd hd List.not_mem_nil
    · exact .inl hgeneric
    · refine .inr fun d hd => ?_
      have htrue := ((hr.freed d).mp hd).1
      rw [hfree] at htrue
      cases htrue
    · refine .inr fun d hd heq => ?_
      obtain ⟨-, hheld, hgone⟩ := (hr.freed d).mp hd
      rcases List.mem_append.mp ((perm_held hi).mem_iff.mp hheld) with hin | hin
      · exact hgone (List.mem_append_right _ (hother d hin heq))
      · exact hgone (List.mem_append_right _ hin)
  have hshrinks : a.array.contents = [] ∨ a.array.contents.any
      (fun e => sameElement text a.contentType (w.store.value e) element) = true ∨
        ShrinkFits m.slots a.array := by
    rcases hshrink with hnil | ⟨e, he, hequal⟩ | hshrink
    · exact .inl hnil
    · rw [hstart.isEqual_eq hw hzero (hclean _ _ hstart fun _ => rfl) e he] at hequal
      exact .inr (.inl (List.any_eq_true.mpr ⟨e, he, Option.some.inj hequal⟩))
    · exact .inr (.inr hshrink)
  obtain ⟨array, s, hremove, hholds', hr, -⟩ := remove_holds
    (I := fun l s => Releasing w.values w.held (w.heldBut i) a.free l s ∧
      (all = false → s.freed = []))
    (J := fun l s => Releasing w.values w.held (w.heldBut i) a.free l s) (release a.free)
    (fun l s hI => hI.1.isEqual_eq hw hzero (hclean l s hI.1 hI.2))
    (fun _ _ _ _ _ hI => hI.1.release) all
    (fun hall _ _ hJ => ⟨hJ, fun hfalse => by rw [hall] at hfalse; cases hfalse⟩)
    (fun _ _ hI => hI.1) hholds ⟨hstart, fun _ => rfl⟩ hshrinks
  refine ⟨_, _, by rw [hremove]; rfl,
    hw.put_releasing (x := some { a with array := array }) hi (fun a' ha' => ?_) (hr.of_holds hholds')⟩
  cases ha'
  rw [hholds'.contents_eq]
  exact hholds'

lemma subtract_step (hw : w.Sound) {i j : Nat} {all : Bool}
    (hfits : SharesFits text w (m, .subtract i j all)) :
    ∃ calls w', sharedStep text m w (.subtract i j all) = some (calls, w') ∧ w'.Sound ∧
      DestroysLast w (w.destructs (.subtract i j all)) calls w' := by
  obtain ⟨hij, a, other, hi, hj, hshrink⟩ := hfits
  have hdestructs : w.destructs (.subtract i j all) = a.free := by
    rw [destructs, hi]
    rfl
  have hstart := hw.releasing hi a.free
  have hholds := hw.holds_array hi
  have hread := (hw.holds_array hj).readEntries_eq
  have hkey : ∀ key ∈ other.array.contents, key ∈ w.held := fun key hkey => mem_held hj hkey
  -- the other array holds its elements all the time
  have hequal : ∀ key ∈ other.array.contents, ∀ l s,
      Releasing w.values w.held (w.heldBut i) a.free l s → ∀ e ∈ l,
        isEqual text a.contentType (s.value key) s e =
          some (sameElement text a.contentType (w.store.value e) (w.store.value key)) := by
    intro key hkeyin l s hr
    have hvalue : s.value key = w.store.value key := by
      rw [EntryStore.value, EntryStore.value, hr.values_eq]
      rfl
    rw [hvalue]
    refine hr.isEqual_eq hw (hw.value_ne key (hkey key hkeyin)) (.inr fun d hd heq => ?_)
    obtain ⟨-, hheld, hgone⟩ := (hr.freed d).mp hd
    have hsame := hw.inj d hheld key (hkey key hkeyin) heq
    exact hgone (List.mem_append_right _ (hsame ▸ mem_heldBut hij hj hkeyin))
  have hshrinks : (other.array.contents.foldl (fun l key => kept
      (fun e => sameElement text a.contentType (w.store.value e) (w.store.value key)) all l)
        a.array.contents).length < a.array.contents.length ∨ ShrinkFits m.slots a.array := by
    rcases hshrink with ⟨key, hkeyin, e, he, hsame⟩ | hshrink
    · have hfound := hequal key hkeyin _ _ hstart e he
      change isEqual text a.contentType (w.store.value key) w.store e = _ at hfound
      rw [hfound] at hsame
      exact .inl (length_foldl_kept_lt all ⟨key, hkeyin, e, he, Option.some.inj hsame⟩)
    · exact .inr hshrink
  obtain ⟨array, s, hsubtract, hholds', hr, -⟩ := subtract_holds
    (I := fun l s => Releasing w.values w.held (w.heldBut i) a.free l s) (release a.free) hequal
    (fun _ _ _ _ _ _ _ hI => hI.release) all hholds hstart hshrinks
  rw [sharedStep, hi, hj, hdestructs]
  simp only [Option.bind_eq_bind, Option.bind_some, if_neg hij, hread, hsubtract]
  refine ⟨_, _, rfl,
    hw.put_releasing (x := some { a with array := array }) hi (fun a' ha' => ?_) (hr.of_holds hholds')⟩
  cases ha'
  rw [hholds'.contents_eq]
  exact hholds'

lemma merge_shared_step (hw : w.Sound) {i j : Nat} (hfits : SharesFits text w (m, .merge i j)) :
    ∃ calls w', sharedStep text m w (.merge i j) = some (calls, w') ∧ w'.Sound ∧
      DestroysLast w (w.destructs (.merge i j)) calls w' := by
  obtain ⟨hij, a, other, hi, hj, hroom⟩ := hfits
  have hread := (hw.holds_array hj).readEntries_eq
  obtain ⟨result, array, k, hloop, hholds', -, -⟩ :=
    mergeLoop_holds m.slots retain w.store (hw.holds_array hi) hroom
  have hin : ∀ e ∈ other.array.contents.take k, e ∈ w.held := fun e he =>
    mem_held hj (List.mem_of_mem_take he)
  obtain ⟨hexact, hvalues, hfreed, hlength⟩ := EntryStore.foldl_retain (s := w.store) hw.exact
    fun e he => hw.exact.bound e (hin e he)
  have hperm : (other.array.contents.take k ++ w.held).Perm
      (array.contents ++ w.heldBut i) := by
    rw [hholds'.contents_eq]
    refine ((perm_held hi).append_left _).trans ?_
    rw [← List.append_assoc]
    exact List.perm_append_comm.append_right _
  have hsound := hw.put (x := some { a with array := array }) hi
    (fun a' ha' => by cases ha'; exact hholds'.contents_eq.symm ▸ hholds') hvalues
    (hlength.trans hw.length_eq) (hexact.perm hperm) fun e he => ?_
  · rw [sharedStep, hi, hj]
    simp only [Option.bind_eq_bind, Option.bind_some, if_neg hij, hread, hloop]
    refine ⟨[], _, congrArg some (Prod.ext ?_ rfl), hsound, destroysLast_nil _ _⟩
    exact List.map_eq_nil_iff.mpr hfreed
  · rcases List.mem_append.mp (hperm.mem_iff.mpr he) with hnew | hold
    · exact hin e hnew
    · exact hold

/-- An array more, of entries that are held already. -/
lemma ArraysWorld.Sound.append (hw : w.Sound) {x : SharedArray} (hx : Holds x.array x.array.contents)
    {counters : List Nat} (hexact : ExactCounts counters (x.array.contents ++ w.held))
    (hlength : counters.length = w.values.length) (hsubset : ∀ e ∈ x.array.contents, e ∈ w.held) :
    Sound ⟨w.arrays ++ [some x], w.values, counters⟩ := by
  have hheld : (w.arrays ++ [some x]).flatMap entriesOf = w.held ++ x.array.contents := by
    rw [List.flatMap_append, List.flatMap_singleton]
    rfl
  have hmem : ∀ e ∈ (w.arrays ++ [some x]).flatMap entriesOf, e ∈ w.held := by
    intro e he
    rw [hheld] at he
    rcases List.mem_append.mp he with hin | hin
    · exact hin
    · exact hsubset e hin
  refine ⟨fun a ha => ?_, hexact.perm ?_, hlength, fun e he e' he' => hw.inj e (hmem e he) e' (hmem e' he'),
    fun e he => hw.value_ne e (hmem e he)⟩
  · rcases List.mem_append.mp ha with hold | hnew
    · exact hw.holds a hold
    · cases List.mem_singleton.mp hnew
      exact hx
  · exact List.perm_append_comm.trans (List.Perm.of_eq hheld.symm)

lemma copy_step (hw : w.Sound) {i : Nat} (hfits : SharesFits text w (m, .copy i)) :
    ∃ calls w', sharedStep text m w (.copy i) = some (calls, w') ∧ w'.Sound ∧
      DestroysLast w (w.destructs (.copy i)) calls w' := by
  obtain ⟨a, hi⟩ := Option.isSome_iff_exists.mp hfits
  have hholds := hw.holds_array hi
  rw [sharedStep, hi]
  simp only [Option.bind_eq_bind, Option.bind_some]
  by_cases hfree : a.free = true
  swap
  · rw [if_neg hfree]
    exact ⟨[], w, rfl, hw, destroysLast_nil _ _⟩
  have hlength : (alloc Nat a.array.length a.array.resizeStrategy).length = a.array.length :=
    List.length_replicate
  have hslots : (alloc Nat a.array.length a.array.resizeStrategy).count + a.array.contents.length ≤
      (alloc Nat a.array.length a.array.resizeStrategy).length := by
    have hle := hholds.count_le
    rw [hholds.count_eq] at hle
    rw [hlength]
    change 0 + _ ≤ _
    omega
  have hempty := holds_alloc (ε := Nat) a.array.length a.array.resizeStrategy
  have hroom : HasRoomFor (alloc Nat a.array.length a.array.resizeStrategy) a.array.contents.length :=
    .inr (.inr hslots)
  obtain ⟨result, array, k, hloop, hholds', -, hresult⟩ :=
    mergeLoop_holds m.slots retain w.store hempty hroom
  have hok := mergeLoop_ok hempty hroom (.inr hslots) hloop
  obtain ⟨-, hk⟩ := hresult.resolve_right fun hfails => hfails.1 hok
  rw [List.take_of_length_le hk] at hloop hholds'
  rw [List.nil_append] at hholds'
  have hin : ∀ e ∈ a.array.contents, e ∈ w.held := fun e he => mem_held hi he
  obtain ⟨hexact, hvalues, -, hcounters⟩ := EntryStore.foldl_retain (s := w.store) hw.exact
    fun e he => hw.exact.bound e (hin e he)
  rw [if_pos hfree, hholds.readEntries_eq]
  simp only [Option.bind_some, hloop, if_pos hok, hvalues]
  have hcontents := hholds'.contents_eq
  exact ⟨[], _, rfl, hw.append (x := { a with array := array }) (hcontents.symm ▸ hholds')
    (hcontents.symm ▸ hexact) (hcounters.trans hw.length_eq) (hcontents.symm ▸ hin),
    destroysLast_nil _ _⟩

/-- An entry more, for an element that no array holds. -/
lemma ArraysWorld.Sound.addEntry (hw : w.Sound) {i element : Nat} {a : SharedArray}
    (hi : w.array i = some a) (hne : element ≠ 0) (hnew : element ∉ w.elements) {array : PbArray Nat}
    (hholds : Holds array (a.array.contents ++ [w.values.length])) :
    Sound { arrays := w.arrays.set i (some { a with array := array })
            values := w.values ++ [element], counters := w.counters ++ [1] } := by
  have hcontents := hholds.contents_eq
  have hperm : ((w.arrays.set i (some { a with array := array })).flatMap entriesOf).Perm
      (w.values.length :: w.held) := by
    refine (perm_held_set hi _).trans ?_
    rw [entriesOf, hcontents, List.append_assoc]
    exact List.perm_middle.trans ((perm_held hi).symm.cons _)
  have hexact := hw.exact.alloc
  rw [hw.length_eq] at hexact
  have hlt : ∀ e ∈ w.held, e < w.values.length := fun e he => hw.length_eq ▸ hw.exact.bound e he
  have hold : ∀ e ∈ w.held, (w.values ++ [element]).getD e 0 = w.store.value e := fun e he => by
    rw [List.getD_eq_getElem?_getD, List.getElem?_append_left (hlt e he), ← List.getD_eq_getElem?_getD]
    rfl
  have hlast : (w.values ++ [element]).getD w.values.length 0 = element := by
    rw [List.getD_eq_getElem?_getD, List.getElem?_concat_length]
    rfl
  have hother : ∀ e ∈ w.held, w.store.value e ≠ element := fun e he heq =>
    hnew (heq ▸ List.mem_map_of_mem he)
  refine ⟨fun a' ha' => ?_, hexact.perm hperm.symm, ?_, fun e he e' he' heq => ?_, fun e he => ?_⟩
  · rcases List.mem_or_eq_of_mem_set ha' with hin | hset
    · exact hw.holds a' hin
    · cases hset
      exact hcontents.symm ▸ hholds
  · rw [List.length_append, List.length_append, hw.length_eq]
    rfl
  · change (w.values ++ [element]).getD e 0 = (w.values ++ [element]).getD e' 0 at heq
    rcases List.mem_cons.mp (hperm.mem_iff.mp he) with rfl | hin
    · rcases List.mem_cons.mp (hperm.mem_iff.mp he') with rfl | hin'
      · rfl
      · rw [hlast, hold e' hin'] at heq
        exact absurd heq.symm (hother e' hin')
    · rcases List.mem_cons.mp (hperm.mem_iff.mp he') with rfl | hin'
      · rw [hlast, hold e hin] at heq
        exact absurd heq (hother e hin)
      · rw [hold e hin, hold e' hin'] at heq
        exact hw.inj e hin e' hin' heq
  · change (w.values ++ [element]).getD e 0 ≠ 0
    rcases List.mem_cons.mp (hperm.mem_iff.mp he) with rfl | hin
    · rw [hlast]
      exact hne
    · rw [hold e hin]
      exact hw.value_ne e hin

lemma add_step (hw : w.Sound) {i element : Nat} (hfits : SharesFits text w (m, .add i element)) :
    ∃ calls w', sharedStep text m w (.add i element) = some (calls, w') ∧ w'.Sound ∧
      DestroysLast w (w.destructs (.add i element)) calls w' := by
  obtain ⟨a, hi, hroom, hne, hnew⟩ := hfits
  have hholds := hw.holds_array hi
  have hstart := hw.releasing hi a.free
  have hsame : Sound { w with arrays := w.arrays.set i (some { a with array := a.array }) } :=
    hw.put hi (x := some a) (s := w.store) (fun a' ha' => by cases ha'; exact hholds) rfl hw.length_eq
      hstart.exact hstart.subset
  have hend : a.array.length < a.array.count ∨ a.array.count ≤ a.array.count ∧ HasRoom a.array :=
    .inr ⟨Nat.le_refl _, hroom⟩
  obtain ⟨result, array, hstep, ⟨rfl, -, hholds'⟩ | ⟨hfails, rfl⟩⟩ :=
    insertAt_step m hholds w.values.length hend
  · rw [hholds.count_eq, List.take_length, List.drop_length] at hholds'
    rw [sharedStep, hi]
    simp only [Option.bind_eq_bind, Option.bind_some, hstep, if_true]
    exact ⟨[], _, rfl, hw.addEntry hi hne hnew hholds', destroysLast_nil _ _⟩
  · rw [sharedStep, hi]
    simp only [Option.bind_eq_bind, Option.bind_some, hstep, if_neg hfails]
    exact ⟨[], _, rfl, hsame, destroysLast_nil _ _⟩

/-- One entry is taken out, or there is none. -/
lemma removeElementAt_step (hw : w.Sound) {i idx : Nat}
    (hfits : SharesFits text w (m, .removeElementAt i idx)) :
    ∃ calls w', sharedStep text m w (.removeElementAt i idx) = some (calls, w') ∧ w'.Sound ∧
      DestroysLast w (w.destructs (.removeElementAt i idx)) calls w' := by
  obtain ⟨a, hi⟩ := Option.isSome_iff_exists.mp hfits
  have hholds := hw.holds_array hi
  have hstart := hw.releasing hi a.free
  have hdestructs : w.destructs (.removeElementAt i idx) = a.free := by
    rw [destructs, hi]
    rfl
  rw [sharedStep, hi, hdestructs]
  simp only [Option.bind_eq_bind, Option.bind_some]
  by_cases hidx : idx < a.array.contents.length
  · obtain ⟨array, hremove, hholds', -⟩ := removeElementAt_holds hholds (release a.free) w.store hidx
    have hsplit : a.array.contents = a.array.contents.take idx ++
        a.array.contents[idx] :: a.array.contents.drop (idx + 1) := by
      rw [← List.drop_eq_getElem_cons hidx, List.take_append_drop]
    have hr : Releasing w.values w.held (w.heldBut i) a.free (a.array.contents.eraseIdx idx)
        (release a.free a.array.contents[idx] w.store) := by
      rw [List.eraseIdx_eq_take_drop_succ]
      refine Releasing.release ?_
      rw [← hsplit]
      exact hstart
    rw [hremove]
    refine ⟨_, _, rfl, hw.put_releasing (x := some { a with array := array }) hi (fun a' ha' => ?_)
      (hr.of_holds hholds')⟩
    cases ha'
    exact hholds'.contents_eq.symm ▸ hholds'
  · rw [removeElementAt_outside hholds _ _ (Nat.not_lt.mp hidx)]
    refine ⟨_, _, rfl, hw.put_releasing (x := some { a with array := a.array }) hi (fun a' ha' => ?_)
      hstart⟩
    cases ha'
    exact hholds

/-- **One operation.** -/
lemma sharedStep_right (hw : w.Sound) (op : SharedOp) (hfits : SharesFits text w (m, op)) :
    ∃ calls w', sharedStep text m w op = some (calls, w') ∧ w'.Sound ∧
      DestroysLast w (w.destructs op) calls w' := by
  cases op with
  | alloc length strategy contentType free =>
      have hempty := holds_alloc (ε := Nat) length strategy
      have hcontents := hempty.contents_eq
      refine ⟨[], _, rfl, hw.append (x := ⟨alloc Nat length strategy, contentType, free⟩)
        (hcontents.symm ▸ hempty) ?_ hw.length_eq ?_, destroysLast_nil _ _⟩
      · rw [hcontents]
        exact hw.exact
      · rw [hcontents]
        exact fun e he => absurd he List.not_mem_nil
  | copy i => exact copy_step hw hfits
  | add i element => exact add_step hw hfits
  | merge i j => exact merge_shared_step hw hfits
  | remove i element all => exact remove_step hw hfits
  | removeElementAt i idx => exact removeElementAt_step hw hfits
  | removeAll i =>
      obtain ⟨a, hi⟩ := Option.isSome_iff_exists.mp hfits
      obtain ⟨array, hremove, hholds', -⟩ :=
        removeAll_holds (hw.holds_array hi) (release a.free) m.slots w.store
      have hdestructs : w.destructs (.removeAll i) = a.free := by
        rw [destructs, hi]
        rfl
      rw [sharedStep, hi, hdestructs]
      simp only [Option.bind_eq_bind, Option.bind_some, hremove]
      refine ⟨_, _, rfl, hw.put_releasing (x := some { a with array := array }) hi
        (fun a' ha' => ?_) ((hw.releasing hi a.free).foldl.of_holds hholds')⟩
      cases ha'
      exact hholds'.contents_eq.symm ▸ hholds'
  | subtract i j all => exact subtract_step hw hfits
  | free i destructor =>
      obtain ⟨a, hi⟩ := Option.isSome_iff_exists.mp hfits
      have hdestructs : w.destructs (.free i destructor) = (a.free || destructor) := by
        rw [destructs, hi]
        rfl
      rw [sharedStep, hi, hdestructs]
      simp only [Option.bind_eq_bind, Option.bind_some, (hw.holds_array hi).readEntries_eq]
      exact ⟨_, _, rfl, hw.put_releasing (x := none) hi (fun a' ha' => by cases ha')
        (hw.releasing hi (a.free || destructor)).foldl⟩

/-! ## All runs -/

/-- What every operation does to the elements, in a state of a run. -/
def DestroysRight (text : Nat → Bytes) (w : ArraysWorld) : Prop :=
  ∀ m op, SharesFits text w (m, op) → ∃ calls w', sharedStep text m w op = some (calls, w') ∧
    DestroysLast w (w.destructs op) calls w'

/-- **Elements are destroyed once**, and not before the last array has released them.  In every run whose
    steps all fit, the calls of the destructor are for the elements that an array held before the
    operation, and none holds after it; each is called once. -/
theorem pbarray_destructors_right (text : Nat → Bytes) (w : ArraysWorld)
    (hr : (sharedMachine text).Reachable (SharesFits text) w) : DestroysRight text w := by
  have hsound : w.Sound := by
    refine Machine.Reachable.invariant (P := ArraysWorld.Sound) ⟨?_, ExactCounts.nil, rfl, ?_, ?_⟩
      (fun w op w' hw hfits hstep => ?_) hr
    · exact fun _ ha => absurd ha List.not_mem_nil
    · exact fun _ he => absurd he List.not_mem_nil
    · exact fun _ he => absurd he List.not_mem_nil
    · obtain ⟨calls, w₁, hright, hw₁, -⟩ := sharedStep_right hw op.2 hfits
      have heq : (sharedStep text op.1 w op.2).map Prod.snd = some w' := hstep
      rw [hright] at heq
      cases heq
      exact hw₁
  intro m op hfits
  obtain ⟨calls, w', hstep, -, hcalls⟩ := sharedStep_right hsound op hfits
  exact ⟨calls, w', hstep, hcalls⟩

/-- An array with an element. -/
def oneElement : ArraysWorld where
  arrays := [some ⟨⟨.optimistic, 2, [some 0, none], 1⟩, .generic, true⟩]
  values := [7]
  counters := [1]

lemma reachable_oneElement :
    (sharedMachine fun _ => []).Reachable (SharesFits fun _ => []) oneElement := by
  have halloc : (sharedMachine fun _ => []).Reachable (SharesFits fun _ => [])
      ⟨[some ⟨alloc Nat 2 .optimistic, .generic, true⟩], [], []⟩ :=
    .step (a := (freeAllocator, .alloc 2 .optimistic .generic true)) .init trivial rfl
  exact .step (a := (freeAllocator, .add 0 7)) halloc
    ⟨_, rfl, .inl Nat.zero_lt_two, by decide, by decide⟩ rfl

theorem pbarray_destructors_right_oneElement : DestroysRight (fun _ => []) oneElement :=
  pbarray_destructors_right (fun _ => []) oneElement reachable_oneElement

/-- An element that is added twice is destroyed while the array still holds it, and then once more. -/
theorem pbarray_destructors_fail :
    (sharedMachine fun _ => []).Reachable (SharesFits fun _ => []) oneElement ∧
      ∃ w₁ w₂ w₃, sharedStep (fun _ => []) freeAllocator oneElement (.add 0 7) = some ([], w₁) ∧
        sharedStep (fun _ => []) freeAllocator w₁ (.remove 0 7 false) = some ([7], w₂) ∧
        w₂.elements = [7] ∧
        sharedStep (fun _ => []) freeAllocator w₂ (.remove 0 7 false) = some ([7], w₃) :=
  ⟨reachable_oneElement, _, _, _, rfl, rfl, rfl, rfl⟩

end PubNub
