import PubNubCore.Arrays.PbArray

/-!
# The operations of arrays

The functions of `lib/pbarray.h`.  What they do with the entries themselves, `release` for
`pbarray_entry_free_`, `retain` for the counter that `pbarray_merge` increments, and `equal` for
`pbarray_element_is_equal_`, works on a state of its own, so that these are lists on one hand and
entries with counters on the other.

Each operation has one lemma, which says what list the array holds afterwards.
-/

namespace PubNub

namespace PbArray

variable {ε σ κ : Type}

/-! ## The functions -/

/-- `pbarray_insert_at`; `pbarray_add` is the same at `array->count`.  `entry` is `none` where none can
    be allocated. -/
def insertAt (memory : Nat → Bool) (a : PbArray ε) (entry : Option ε) (idx : Nat) :
    Option (PbarrayRes × PbArray ε) :=
  match entry with
  | some entry => a.addEntryAt memory idx entry
  | none => some (.outOfMemory, a)

/-- `pbarray_remove_`, for an element that is not `NULL`. -/
def remove (equal : σ → ε → Option Bool) (release : ε → σ → σ) (memory : Nat → Bool) (all : Bool)
    (a : PbArray ε) (s : σ) : Option (PbarrayRes × PbArray ε × σ) :=
  if a.count = 0 then some (.notFound, a, s)
  else do
    let (a, s, found) ← removeLoop equal release all (a.count + 1) 0 a s false
    some (if found then .ok else .notFound, (a.resize memory false).2, s)

/-- `pbarray_remove_element_at`. -/
def removeElementAt (release : ε → σ → σ) (a : PbArray ε) (idx : Nat) (s : σ) :
    Option (PbarrayRes × PbArray ε × σ) :=
  if a.count = 0 ∨ a.count ≤ idx then
    some (if a.count ≤ idx then .indexOutOfRange else .ok, a, s)
  else do
    let entry ← a.entryAt idx
    let a ← a.removeEntryAt idx
    some (.ok, a, release entry s)

/-- `pbarray_remove_all`. -/
def removeAll (release : ε → σ → σ) (memory : Nat → Bool) (a : PbArray ε) (s : σ) :
    Option (PbArray ε × σ) := do
  let entries ← a.readEntries
  some ((resize memory { a with count := 0 } false).2, entries.foldl (fun s e => release e s) s)

/-- `pbarray_subtract`. -/
def subtract (equal : κ → σ → ε → Option Bool) (release : ε → σ → σ) (memory : Nat → Bool)
    (all : Bool) (keys : List κ) (a : PbArray ε) (s : σ) : Option (PbArray ε × σ) := do
  let (a, s) ← subtractLoop equal release all keys a s
  some ((a.resize memory false).2, s)

/-- `pbarray_pop_first` and `pbarray_pop_last` at the index they take. -/
def pop (release : ε → σ → σ) (a : PbArray ε) (idx : Nat) (s : σ) :
    Option (Option ε × PbArray ε × σ) :=
  if a.count = 0 then some (none, a, s)
  else do
    let entry ← a.entryAt idx
    let a ← a.removeEntryAt idx
    some (some entry, a, release entry s)

/-! ## What they do -/

variable {a : PbArray ε} {l : List ε} {memory : Nat → Bool} {s : σ}

/-- An array that has lost an entry may be made smaller. -/
lemma Holds.shrinkFits_of_lt (h : Holds a l) (hlt : l.length < a.length) : ShrinkFits memory a :=
  fun _ => .inl (h.count_eq ▸ hlt)

lemma resize_decrease_snd (h : Holds a l) (hfits : ShrinkFits memory a) :
    Holds (a.resize memory false).2 l ∧ SameKind a (a.resize memory false).2 := by
  obtain ⟨result, a', hresize, hholds, hkind⟩ := resize_decrease h hfits
  rw [hresize]
  exact ⟨hholds, hkind⟩

lemma length_kept_le (p : ε → Bool) (all : Bool) (l : List ε) : (kept p all l).length ≤ l.length := by
  rw [kept]
  split
  · exact List.length_filter_le _ _
  · exact List.length_eraseP_le

/-- Something is missing if an entry had the property. -/
lemma length_kept_lt {p : ε → Bool} (all : Bool) (h : l.any p = true) :
    (kept p all l).length < l.length := by
  obtain ⟨e, he, hp⟩ := List.any_eq_true.mp h
  rw [kept]
  split
  · exact List.length_filter_lt_length_iff_exists.mpr ⟨e, he, by simp [hp]⟩
  · rw [List.length_eraseP_of_mem he hp]
    exact Nat.sub_lt (List.length_pos_of_mem he) Nat.zero_lt_one

lemma remove_holds (release : ε → σ → σ) {equal : σ → ε → Option Bool} {p : ε → Bool}
    {I J : List ε → σ → Prop} (hequal : ∀ l s, I l s → ∀ e ∈ l, equal s e = some (p e))
    (hrelease : ∀ pre e post s, p e = true → I (pre ++ e :: post) s → J (pre ++ post) (release e s))
    (all : Bool) (hagain : all = true → ∀ l s, J l s → I l s) (hend : ∀ l s, I l s → J l s) (h : Holds a l) (hI : I l s)
    (hfits : l = [] ∨ l.any p = true ∨ ShrinkFits memory a) :
    ∃ a' s', a.remove equal release memory all s =
        some (if l.any p then .ok else .notFound, a', s') ∧
      Holds a' (kept p all l) ∧ J (kept p all l) s' ∧ SameKind a a' := by
  rw [remove]
  by_cases hnil : l = []
  · subst hnil
    have hkept : kept p all [] = [] := by
      cases all with
      | true => rfl
      | false => rfl
    have hcount : a.count = 0 := h.count_eq
    rw [if_pos hcount, hkept]
    exact ⟨a, s, rfl, h, hend _ _ hI, rfl, rfl⟩
  have hcount : ¬ a.count = 0 := by
    rw [h.count_eq]
    exact fun hzero => hnil (List.length_eq_zero_iff.mp hzero)
  have hstart : Holds a ([] ++ l) := h
  have hfuel : l.length < a.count + 1 := by
    rw [h.count_eq]
    exact Nat.lt_succ_self _
  obtain ⟨a₁, s₁, hloop, hholds, hI₁, hlength, hkind⟩ :=
    removeLoop_holds all false hequal hrelease hagain hend hstart hI hfuel
  rw [List.nil_append] at hholds hI₁
  rw [List.length_nil, Bool.false_or] at hloop
  have hshrink : ShrinkFits memory a₁ := by
    by_cases hany : l.any p = true
    · have hlt := length_kept_lt all hany
      have hle := h.count_le
      rw [h.count_eq] at hle
      exact hholds.shrinkFits_of_lt (by omega)
    · have hfits := (hfits.resolve_left hnil).resolve_left hany
      intro hstrategy
      rw [hholds.count_eq, hlength]
      rcases hfits (hkind.1 ▸ hstrategy) with hlt | hone | hfails
      · have hle := length_kept_le p all l
        rw [h.count_eq] at hlt
        exact .inl (by omega)
      · exact .inr (.inl hone)
      · exact .inr (.inr hfails)
  obtain ⟨hholds', hkind'⟩ := resize_decrease_snd hholds hshrink
  refine ⟨_, s₁, ?_, hholds', hI₁, hkind.trans hkind'⟩
  rw [if_neg hcount, hloop]
  rfl

lemma removeElementAt_holds (h : Holds a l) (release : ε → σ → σ) (s : σ) {idx : Nat}
    (hidx : idx < l.length) : ∃ a', a.removeElementAt release idx s =
      some (.ok, a', release l[idx] s) ∧ Holds a' (l.eraseIdx idx) ∧ SameKind a a' := by
  obtain ⟨a', ha', hholds, -, hkind⟩ := removeEntryAt_holds h hidx
  have hin : ¬ (a.count = 0 ∨ a.count ≤ idx) := by
    rw [h.count_eq]
    omega
  refine ⟨a', ?_, hholds, hkind⟩
  rw [removeElementAt, if_neg hin, h.entryAt hidx, ha']
  rfl

lemma removeElementAt_outside (h : Holds a l) (release : ε → σ → σ) (s : σ) {idx : Nat}
    (hidx : l.length ≤ idx) :
    a.removeElementAt release idx s = some (.indexOutOfRange, a, s) := by
  rw [← h.count_eq] at hidx
  rw [removeElementAt, if_pos (.inr hidx), if_pos hidx]

lemma removeAll_holds (h : Holds a l) (release : ε → σ → σ) (memory : Nat → Bool) (s : σ) :
    ∃ a', a.removeAll release memory s = some (a', l.foldl (fun s e => release e s) s) ∧
      Holds a' [] ∧ SameKind a a' := by
  have hempty : Holds { a with count := 0 } ([] : List ε) := ⟨rfl, List.nil_prefix⟩
  have hfits : ShrinkFits memory ({ a with count := 0 } : PbArray ε) := by
    intro _
    by_cases hpos : 0 < a.length
    · exact .inl hpos
    · exact .inr (.inl (Nat.le_succ_of_le (Nat.not_lt.mp hpos)))
  obtain ⟨hholds, hkind⟩ := resize_decrease_snd hempty hfits
  refine ⟨_, ?_, hholds, hkind⟩
  rw [removeAll, h.readEntries_eq]
  rfl

lemma length_foldl_kept_le (p : κ → ε → Bool) (all : Bool) (keys : List κ) (l : List ε) :
    (keys.foldl (fun l key => kept (p key) all l) l).length ≤ l.length := by
  induction keys generalizing l with
  | nil => exact Nat.le_refl _
  | cons key keys ih => exact Nat.le_trans (ih _) (length_kept_le _ _ _)

lemma subtract_holds (release : ε → σ → σ) {equal : κ → σ → ε → Option Bool} {p : κ → ε → Bool} {I : List ε → σ → Prop}
    {keys : List κ}
    (hequal : ∀ key ∈ keys, ∀ l s, I l s → ∀ e ∈ l, equal key s e = some (p key e))
    (hrelease : ∀ key ∈ keys, ∀ pre e post s, p key e = true → I (pre ++ e :: post) s →
      I (pre ++ post) (release e s))
    (all : Bool) (h : Holds a l) (hI : I l s)
    (hfits : (keys.foldl (fun l key => kept (p key) all l) l).length < l.length ∨
      ShrinkFits memory a) :
    ∃ a' s', a.subtract equal release memory all keys s = some (a', s') ∧
      Holds a' (keys.foldl (fun l key => kept (p key) all l) l) ∧
      I (keys.foldl (fun l key => kept (p key) all l) l) s' ∧ SameKind a a' := by
  obtain ⟨a₁, s₁, hloop, hholds, hI₁, hlength, hkind⟩ :=
    subtractLoop_holds all hequal hrelease h hI
  have hshrink : ShrinkFits memory a₁ := by
    have hle := h.count_le
    rw [h.count_eq] at hle
    rcases hfits with hlt | hfits
    · exact hholds.shrinkFits_of_lt (by omega)
    · intro hstrategy
      rw [hholds.count_eq, hlength]
      have hkept := length_foldl_kept_le p all keys l
      rcases hfits (hkind.1 ▸ hstrategy) with hlt | hone | hfails
      · rw [h.count_eq] at hlt
        exact .inl (by omega)
      · exact .inr (.inl hone)
      · exact .inr (.inr hfails)
  obtain ⟨hholds', hkind'⟩ := resize_decrease_snd hholds hshrink
  refine ⟨_, s₁, ?_, hholds', hI₁, hkind.trans hkind'⟩
  rw [subtract, hloop]
  rfl

lemma pop_holds (h : Holds a l) (release : ε → σ → σ) (s : σ) {idx : Nat} (hidx : idx < l.length) :
    ∃ a', a.pop release idx s = some (some l[idx], a', release l[idx] s) ∧
      Holds a' (l.eraseIdx idx) ∧ SameKind a a' := by
  obtain ⟨a', ha', hholds, -, hkind⟩ := removeEntryAt_holds h hidx
  have hcount : ¬ a.count = 0 := by
    rw [h.count_eq]
    omega
  refine ⟨a', ?_, hholds, hkind⟩
  rw [pop, if_neg hcount, h.entryAt hidx, ha']
  rfl

end PbArray

end PubNub
