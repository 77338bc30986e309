import PubNubCore.Listeners.Registered

/-!
# Registrations with several names

The loops over the names of a subscription object.  A listener is put into the lists of the names
one after the other as long as there is memory (`addToNames_append`), and the listeners that are
equal to one are taken out of them (`removeFromNames_eq`) if each of them has references enough
(`ReleasedInTime`).
-/

namespace PubNub

namespace PbccEventListener

variable (s : PbccEventListener)

/-- The names that have a list. -/
def keys : List Bytes := (s.listeners.map fun set => set.entries.map Prod.fst).getD []

/-- There is no memory for the registration with a name. -/
def fails (memory : Bytes → NameAllocation) (name : Bytes) : Bool :=
  match s.array (some name) with
  | some _ => memory name = .noEntry
  | none => memory name ≠ .enough

/-- How many of the names have a listener in their list. -/
def listings (names : List Bytes) (l : Nat) : Nat :=
  names.countP fun name => l ∈ s.listed (some name)

/-- How many references a listener has. -/
def references (l : Nat) : Nat := (countAt s.objects l).getD 0

/-- A listener is not freed before it has been taken out of all its lists: it gives up two
    references with each of the names. -/
def OutlivesRemoval (names : List Bytes) (l : Nat) : Prop :=
  (1 < s.listings names l → 2 * (s.listings names l - 1) < s.references l) ∧
  (0 < s.listings names l → (∃ name ∈ s.keys, name ∉ names ∧ l ∈ s.listed (some name)) →
    2 * s.listings names l < s.references l)

instance (names : List Bytes) (l : Nat) : Decidable (s.OutlivesRemoval names l) :=
  inferInstanceAs (Decidable (
    (1 < s.listings names l → 2 * (s.listings names l - 1) < s.references l) ∧
    (0 < s.listings names l → (∃ name ∈ s.keys, name ∉ names ∧ l ∈ s.listed (some name)) →
      2 * s.listings names l < s.references l)))

/-- None of the listeners that are equal to `r` is freed before it is in no list any more. -/
def ReleasedInTime (r : Registration) (names : List Bytes) : Prop :=
  ∀ l < s.objects.length, s.registration l = some r → s.OutlivesRemoval names l

instance (r : Registration) (names : List Bytes) : Decidable (s.ReleasedInTime r names) :=
  inferInstanceAs (Decidable (∀ l < s.objects.length, s.registration l = some r →
    s.OutlivesRemoval names l))

variable {s} {s' : PbccEventListener} {R : Registrations} {r : Registration} {name : Bytes}
  {l p n : Nat} {memory : Bytes → NameAllocation}

lemma mem_keys_of_listed (hl : l ∈ s.listed (some name)) : name ∈ s.keys := by
  cases hs : s.listeners with
  | none => simp [listed, array, hs] at hl
  | some set =>
      cases hfind : set.find? name with
      | none => simp [listed, array, hs, hfind] at hl
      | some ls =>
          rw [keys, hs]
          exact List.mem_map.mpr ⟨(name, ls), ChainedHash.mem_entries.mpr hfind, rfl⟩

/-- Another hash set, which differs at one name. -/
lemma array_of_find? {set set' : PbhashSet (List Nat)} {v : Option (List Nat)}
    (hset : s.listeners = some set)
    (hfind : ∀ c, set'.find? c = if c = name then v else set.find? c)
    (hlisteners : s'.listeners = some set') (hevents : s'.globalEvents = s.globalEvents)
    (place : Option Bytes) :
    s'.array place = if place = some name then v else s.array place := by
  cases place with
  | none => simpa [array] using hevents
  | some c =>
      simp only [array, hlisteners, hset, Option.bind_some, Option.some.injEq]
      exact hfind c

lemma listed_of_array {v : Option (List Nat)} {q : Option Bytes}
    (h : ∀ place, s'.array place = if place = q then v else s.array place) (place : Option Bytes) :
    s'.listed place = if place = q then v.getD [] else s.listed place := by
  rw [listed, h]
  by_cases hplace : place = q
  · rw [if_pos hplace, if_pos hplace]
  · rw [if_neg hplace, if_neg hplace, listed]

end PbccEventListener

open PbccEventListener

namespace Represents

variable {s s' : PbccEventListener} {R : Registrations} {r : Registration} {name : Bytes}
  {l p n : Nat} {memory : Bytes → NameAllocation} {set : PbhashSet (List Nat)}

lemma hash_lt (h : Represents s R) (hset : s.listeners = some set) (name : Bytes) :
    pbhashSetElementHash set.buckets.length name < set.buckets.length := by
  rw [h.length set hset]
  exact pbhashSetElementHash_lt (by decide) name

/-! ## One name -/

/-- A listener is put into the list of a name. -/
lemma addObjectListener (h : Represents s R) (hset : s.listeners.isSome)
    (hfails : s.fails memory name = false) (hread : s.objects.read l = some ⟨r, some n⟩)
    (hl : l ∉ s.listed (some name)) (hobject : r.subscriptionObject ≠ none) :
    ∃ s', s.addObjectListener name l (memory name) =
        some (s', .ok, (s.array (some name)).isNone) ∧
      Represents s' (R.add [some name] r) ∧ s'.listeners.isSome ∧
      s'.objects = s.objects.write l (some ⟨r, some (n + 1)⟩) ∧
      ∀ place, s'.array place =
        if place = some name then some (s.listed (some name) ++ [l]) else s.array place := by
  obtain ⟨set, hset⟩ := Option.isSome_iff_exists.mp hset
  have harray : s.array (some name) = set.find? name := by rw [array, hset, Option.bind_some]
  -- whether the name has a list or not, the new hash set differs at the name only
  have hadd : ∃ set' : PbhashSet (List Nat), s.addObjectListener name l (memory name) =
        some (⟨s.objects.write l (some ⟨r, some (n + 1)⟩), s.globalEvents, some set'⟩, .ok,
          (s.array (some name)).isNone) ∧
      set'.buckets.length = set.buckets.length ∧
      ∀ c, set'.find? c = if c = name then some (s.listed (some name) ++ [l]) else set.find? c := by
    rw [fails, harray] at hfails
    rw [PbccEventListener.listed, harray, PbccEventListener.addObjectListener, hset]
    simp only [Option.bind_eq_bind, Option.bind_some]
    cases hfind : set.find? name with
    | some ls =>
        rw [hfind] at hfails
        simp only at hfails ⊢
        have hmemory : memory name ≠ .noEntry := by simpa using hfails
        rw [decide_eq_true hmemory, pbccAddListener_entry hread]
        refine ⟨set.replace name (ls ++ [l]), rfl, ChainedHash.length_replace, fun c => ?_⟩
        rw [ChainedHash.find?_replace (h.hash_lt hset name), hfind]
        rfl
    | none =>
        rw [hfind] at hfails
        have hmemory : memory name = .enough := by simpa using hfails
        rw [hmemory]
        simp only
        rw [decide_eq_true (by decide), pbccAddListener_entry hread]
        refine ⟨set.insertNew name ([] ++ [l]), rfl, ChainedHash.length_insertNew, fun c => ?_⟩
        rw [ChainedHash.find?_insertNew (h.hash_lt hset name)]
        by_cases hc : c = name
        · subst hc
          simp [hfind]
        · simp [hc]
  obtain ⟨set', heq, hlength, hfind⟩ := hadd
  have hset' : (⟨s.objects.write l (some ⟨r, some (n + 1)⟩), s.globalEvents, some set'⟩ :
    PbccEventListener).listeners = some set' := rfl
  have hall := array_of_find? hset hfind hset' rfl
  refine ⟨_, heq, ?_, rfl, rfl, hall⟩
  refine h.add (listed_of_array hall) ?_ ?_ ?_ hl ?_
  · rintro _ ⟨⟩
    rw [hlength, h.length set hset]
  · intro place j hj
    by_cases hjl : j = l
    · subst hjl
      rw [registration, registration, registrationAt_eq_some.mpr ⟨n, hread⟩]
      exact registrationAt_eq_some.mpr ⟨n + 1, by rw [Heap.read_write hread, if_pos rfl]⟩
    · refine registrationAt_congr ?_
      rw [Heap.read_write hread, if_neg hjl]
  · exact registrationAt_eq_some.mpr ⟨n + 1, by rw [Heap.read_write hread, if_pos rfl]⟩
  · simpa using hobject

/-- There is no memory for one more entry in the list of a name. -/
lemma addObjectListener_noEntry (h : Represents s R) (hset : s.listeners = some set)
    (harray : (s.array (some name)).isSome) (hmemory : memory name = .noEntry) :
    ∃ s', s.addObjectListener name l (memory name) = some (s', .outOfMemory, false) ∧
      Represents s' R ∧ s'.objects = s.objects ∧ ∀ place, s'.array place = s.array place := by
  obtain ⟨ls, harray⟩ := Option.isSome_iff_exists.mp harray
  have hfind : set.find? name = some ls := by simpa [array, hset] using harray
  rw [hmemory, PbccEventListener.addObjectListener, hset]
  simp only [Option.bind_eq_bind, Option.bind_some, hfind]
  rw [decide_eq_false (by simp), pbccAddListener_noEntry]
  simp only [Option.bind_some]
  have hsame : ∀ c, (set.replace name ls).find? c = if c = name then some ls else set.find? c := by
    intro c
    rw [ChainedHash.find?_replace (h.hash_lt hset name), hfind]
    rfl
  have hall : ∀ place, (⟨s.objects, s.globalEvents, some (set.replace name ls)⟩ :
      PbccEventListener).array place = s.array place := by
    intro place
    have hset' : (⟨s.objects, s.globalEvents, some (set.replace name ls)⟩ :
      PbccEventListener).listeners = some (set.replace name ls) := rfl
    rw [array_of_find? hset hsame hset' rfl]
    by_cases hplace : place = some name
    · rw [if_pos hplace, hplace, harray]
    · rw [if_neg hplace]
  refine ⟨_, rfl, h.congr (fun place => ?_) ?_ fun _ _ _ => rfl, rfl, hall⟩
  · rw [PbccEventListener.listed, hall, PbccEventListener.listed]
  · rintro _ ⟨⟩
    rw [ChainedHash.length_replace, h.length set hset]

/-- The listeners that are equal to `p` are taken out of the list of a name. -/
lemma removeObjectListener (h : Represents s R) (hset : s.listeners.isSome)
    (hp : s.listed (some name) ≠ [] → ∃ x, s.objects.read p = some x ∧ x.toRegistration = r)
    (hlast : p ∉ (s.listed (some name)).dropLast)
    (hsafe : ∀ l ∈ s.listed (some name), ∀ count, s.objects.read l = some ⟨r, some count⟩ →
      ∀ place, place ≠ some name → l ∈ s.listed place → 2 < count) :
    ∃ s', s.removeObjectListener name p = some s' ∧ Represents s' (R.remove [some name] r) ∧
      s'.listeners.isSome ∧ Released r (s.listed (some name)) s.objects s'.objects ∧
      (∀ place, s'.listed place =
        if place = some name then
          (s.listed (some name)).filter (fun l => s.registration l ≠ some r)
        else s.listed place) ∧
      ∀ place, place ≠ some name → s'.array place = s.array place := by
  obtain ⟨set, hset⟩ := Option.isSome_iff_exists.mp hset
  have harray : s.array (some name) = set.find? name := by rw [array, hset, Option.bind_some]
  have hnodup := h.nodup (some name)
  have hlive : ∀ l ∈ s.listed (some name), (registrationAt s.objects l).isSome :=
    fun l hl => h.isSome hl
  obtain ⟨objects', hremove, hreleased⟩ := pbccRemoveListener_eq hnodup hlive hp hlast
  have hremoved : ∃ s', s.removeObjectListener name p = some s' ∧ s'.objects = objects' ∧
      s'.globalEvents = s.globalEvents ∧ ∃ set' : PbhashSet (List Nat), s'.listeners = some set' ∧
        set'.buckets.length = set.buckets.length ∧ ∃ v : Option (List Nat),
          v.getD [] = (s.listed (some name)).filter (fun l => s.registration l ≠ some r) ∧
          ∀ c, set'.find? c = if c = name then v else set.find? c := by
    rw [PbccEventListener.removeObjectListener, hset]
    simp only [Option.bind_eq_bind, Option.bind_some]
    cases hfind : set.find? name with
    | none =>
        have hnil : s.listed (some name) = [] := by rw [PbccEventListener.listed, harray, hfind, Option.getD_none]
        rw [hnil] at hreleased hremove ⊢
        have hobjects : objects' = s.objects := by
          simpa [pbccRemoveListener, pbccRemoveListenerLoop] using hremove.symm
        refine ⟨s, rfl, hobjects.symm, rfl, set, hset, rfl, none, rfl, fun c => ?_⟩
        by_cases hc : c = name
        · rw [if_pos hc, hc, hfind]
        · rw [if_neg hc]
    | some ls =>
        have hls : s.listed (some name) = ls := by rw [PbccEventListener.listed, harray, hfind, Option.getD_some]
        rw [hls] at hremove ⊢
        simp only
        rw [hremove]
        simp only [Option.bind_some]
        refine ⟨_, rfl, rfl, rfl, _, rfl, ?_, ?_⟩
        · split
          · exact ChainedHash.length_erase
          · exact ChainedHash.length_replace
        · by_cases hnil : (ls.filter fun l => registrationAt s.objects l ≠ some r) = []
          · refine ⟨none, hnil.symm, fun c => ?_⟩
            rw [if_pos hnil, ChainedHash.find?_erase (h.hash_lt hset name)]
          · refine ⟨some _, rfl, fun c => ?_⟩
            rw [if_neg hnil, ChainedHash.find?_replace (h.hash_lt hset name), hfind]
            rfl
  obtain ⟨s', heq, hobjects, hevents, set', hset', hlength, v, hv, hfind⟩ := hremoved
  have hall := array_of_find? hset hfind hset' hevents
  have hlisted := listed_of_array hall
  rw [hv] at hlisted
  rw [← hobjects] at hreleased
  refine ⟨s', heq, h.release hreleased hlisted ?_ hsafe, by rw [hset']; rfl, hreleased, hlisted,
    fun place hplace => by rw [hall, if_neg hplace]⟩
  intro set'' hset''
  rw [hset', Option.some.injEq] at hset''
  rw [← hset'', hlength, h.length set hset]

end Represents

/-! ## Several names -/

section Names

variable {s s' : PbccEventListener} {R : Registrations} {r : Registration} {name : Bytes}
  {l p n : Nat} {memory : Bytes → NameAllocation} {names : List Bytes}

/-- **A registration with names** for which there is memory, in front of other names. -/
lemma addToNames_append (hobject : r.subscriptionObject ≠ none) (rest : List Bytes) :
    ∀ (added : List Bytes) (s : PbccEventListener) (R : Registrations) (n : Nat) (b t : Bool),
    added.Nodup → Represents s R → s.listeners.isSome → (∀ name ∈ added, s.fails memory name = false) →
    s.objects.read l = some ⟨r, some n⟩ → (∀ name ∈ added, l ∉ s.listed (some name)) →
    ∃ s' t', addToNames l memory (added ++ rest) ⟨s, .ok, b, t⟩ =
        addToNames l memory rest ⟨s', .ok, b || !added.isEmpty, t'⟩ ∧
      Represents s' (R.add (added.map some) r) ∧ s'.listeners.isSome ∧
      s'.objects.read l = some ⟨r, some (n + added.length)⟩ ∧
      (∀ place, place ∉ added.map some → s'.array place = s.array place) ∧
      (∀ name ∈ added, s'.listed (some name) = s.listed (some name) ++ [l]) ∧
      ((∀ name ∈ added, (s.array (some name)).isSome) → t' = t) := by
  intro added
  induction added with
  | nil =>
      intro s R n b t _ h hset _ hread _
      refine ⟨s, t, by simp, ?_, hset, by simpa using hread, fun _ _ => rfl, by simp,
        fun _ => rfl⟩
      rw [List.map_nil, Registrations.add_nil]
      exact h
  | cons name added ih =>
      intro s R n b t hnodup h hset hfails hread hl
      obtain ⟨hname, hnodup⟩ := List.nodup_cons.mp hnodup
      have hother : ∀ c ∈ added, (some c : Option Bytes) ≠ some name := by
        rintro c hc heq
        rw [Option.some.injEq] at heq
        exact hname (heq ▸ hc)
      obtain ⟨s₁, hadd, h₁, hset₁, hobjects, harray⟩ := h.addObjectListener hset
        (hfails name List.mem_cons_self) hread (hl name List.mem_cons_self) hobject
      have hread₁ : s₁.objects.read l = some ⟨r, some (n + 1)⟩ := by
        rw [hobjects, Heap.read_write hread, if_pos rfl]
      have harray₁ : ∀ c ∈ added, s₁.array (some c) = s.array (some c) := by
        intro c hc
        rw [harray, if_neg (hother c hc)]
      have hlisted₁ : ∀ c ∈ added, s₁.listed (some c) = s.listed (some c) := by
        intro c hc
        rw [listed, harray₁ c hc, listed]
      obtain ⟨s', t', heq, h', hset', hread', harray', hlisted', htaken⟩ := ih s₁ _ (n + 1) true
        (t || (s.array (some name)).isNone) hnodup h₁ hset₁
        (fun c hc => by
          rw [fails, harray₁ c hc]
          exact hfails c (List.mem_cons_of_mem _ hc))
        hread₁
        (fun c hc => by
          rw [hlisted₁ c hc]
          exact hl c (List.mem_cons_of_mem _ hc))
      refine ⟨s', t', ?_, ?_, hset', ?_, ?_, ?_, ?_⟩
      · rw [List.cons_append, addToNames, hadd]
        simpa using heq
      · rw [List.map_cons, Registrations.add_cons]
        · exact h'
        · simpa using hname
      · rw [hread', List.length_cons, Nat.add_right_comm, Nat.add_assoc]
      · intro place hplace
        rw [List.map_cons, List.mem_cons, not_or] at hplace
        rw [harray' place hplace.2, harray, if_neg hplace.1]
      · intro c hc
        rcases List.mem_cons.mp hc with rfl | hc
        · rw [listed, harray' _ (by simpa using hname), harray, if_pos rfl]
          rfl
        · rw [hlisted' c hc, hlisted₁ c hc]
      · intro hsome
        rw [htaken fun c hc => by
          rw [harray₁ c hc]
          exact hsome c (List.mem_cons_of_mem _ hc)]
        have hnone : (s.array (some name)).isNone = false := by
          simpa using hsome name List.mem_cons_self
        rw [hnone, Bool.or_false]

lemma references_of_read {count : Nat} (hread : s.objects.read l = some ⟨r, some count⟩) :
    s.references l = count := by
  rw [references, countAt_of_read hread, Option.getD_some]

lemma listings_cons : s.listings (name :: names) l =
    s.listings names l + if l ∈ s.listed (some name) then 1 else 0 := by
  rw [listings, List.countP_cons, listings]
  congr 1
  by_cases hl : l ∈ s.listed (some name) <;> simp [hl]

lemma listings_pos (hname : name ∈ names) (hl : l ∈ s.listed (some name)) :
    0 < s.listings names l :=
  List.countP_pos_iff.mpr ⟨name, hname, by simpa using hl⟩

/-- A listener that is in a second list outlives its removal from the first one. -/
lemma PbccEventListener.ReleasedInTime.two_lt (hr : s.ReleasedInTime r (name :: names)) (h : Represents s R)
    {count : Nat} (hl : l ∈ s.listed (some name))
    (hread : s.objects.read l = some ⟨r, some count⟩) {place : Option Bytes}
    (hplace : place ≠ some name) (hmem : l ∈ s.listed place) : 2 < count := by
  obtain ⟨hagain, helsewhere⟩ := hr l (h.lt_length hl) (registrationAt_eq_some.mpr ⟨count, hread⟩)
  rw [references_of_read hread, listings_cons, if_pos hl] at hagain helsewhere
  cases place with
  | none => exact absurd hl (h.place_eq_none hmem)
  | some c =>
      have hc : c ≠ name := by
        rintro rfl
        exact hplace rfl
      by_cases hcn : c ∈ names
      · have hpos := listings_pos hcn hmem
        have := hagain (by omega)
        omega
      · have := helsewhere (by omega) ⟨c, mem_keys_of_listed hmem, by simp [hc, hcn], hmem⟩
        omega

/-- What a name has given up leaves enough references for the names that follow. -/
lemma PbccEventListener.ReleasedInTime.step (hr : s.ReleasedInTime r (name :: names)) (h : Represents s R)
    (hname : name ∉ names) (hreleased : Released r (s.listed (some name)) s.objects s'.objects)
    (hlisted : ∀ place, s'.listed place =
      if place = some name then (s.listed (some name)).filter (fun l => s.registration l ≠ some r)
      else s.listed place) : s'.ReleasedInTime r names := by
  intro l hl hreg
  rw [hreleased.length] at hl
  obtain ⟨count', hread'⟩ := registrationAt_eq_some.mp hreg
  have hsame : ∀ c ∈ names, s'.listed (some c) = s.listed (some c) := by
    intro c hc
    rw [hlisted, if_neg]
    rintro ⟨⟩
    exact hname hc
  have hlistings : s'.listings names l = s.listings names l := by
    refine List.countP_congr fun c hc => ?_
    rw [hsame c hc]
  -- where it is now besides the names, it was before
  have hplaces : (∃ c ∈ s'.keys, c ∉ names ∧ l ∈ s'.listed (some c)) →
      s.registration l = some r →
      ∃ c ∈ s.keys, c ∉ name :: names ∧ l ∈ s.listed (some c) := by
    rintro ⟨c, -, hc, hmem⟩ hold
    rw [hlisted] at hmem
    by_cases hcn : (some c : Option Bytes) = some name
    · rw [if_pos hcn] at hmem
      exact absurd hold (by simpa using (List.mem_filter.mp hmem).2)
    · rw [if_neg hcn] at hmem
      refine ⟨c, mem_keys_of_listed hmem, ?_, hmem⟩
      rw [List.mem_cons, not_or]
      exact ⟨fun heq => hcn (congrArg some heq), hc⟩
  rw [OutlivesRemoval, references_of_read hread', hlistings]
  by_cases hmem : l ∈ s.listed (some name)
  · obtain ⟨r', -, hr'⟩ := h.mem hmem
    obtain ⟨count, hread⟩ := registrationAt_eq_some.mp hr'
    have heq : r' = r := by
      by_contra hne
      have hsome : s.registration l ≠ some r := by
        rw [hr']
        simpa using hne
      rw [hreleased.read_of_ne hsome (h.isSome hmem), hread] at hread'
      cases hread'
      exact hne rfl
    subst heq
    obtain ⟨hagain, helsewhere⟩ := hr l hl hr'
    rw [references_of_read hread, listings_cons, if_pos hmem] at hagain helsewhere
    rw [hreleased.read_of_mem hmem hread] at hread'
    split at hread'
    · cases hread'
    · cases hread'
      refine ⟨fun hmany => ?_, fun hpos hplace => ?_⟩
      · have := hagain (by omega)
        omega
      · have := helsewhere (by omega) (hplaces hplace hr')
        omega
  · rw [hreleased.read_of_not_mem hmem] at hread'
    have hold : s.registration l = some r := registrationAt_eq_some.mpr ⟨count', hread'⟩
    obtain ⟨hagain, helsewhere⟩ := hr l hl hold
    rw [references_of_read hread', listings_cons, if_neg hmem] at hagain helsewhere
    exact ⟨hagain, fun hpos hplace => helsewhere hpos (hplaces hplace hold)⟩

/-- **A removal from names** of what is equal to a listener that is in no list. -/
lemma removeFromNames_eq {x : PbccListener} (hx : x.toRegistration = r) :
    ∀ (names : List Bytes) (s : PbccEventListener) (R : Registrations), names.Nodup →
    Represents s R → s.listeners.isSome → s.objects.read p = some x →
    (∀ place, p ∉ s.listed place) → s.ReleasedInTime r names →
    ∃ s', removeFromNames p names s = some s' ∧ Represents s' (R.remove (names.map some) r) ∧
      s'.listeners.isSome ∧ s'.objects.read p = some x ∧ ∀ place, p ∉ s'.listed place := by
  intro names
  induction names with
  | nil =>
      intro s R _ h hset hread hp _
      refine ⟨s, rfl, ?_, hset, hread, hp⟩
      rw [List.map_nil, Registrations.remove_nil]
      exact h
  | cons name names ih =>
      intro s R hnodup h hset hread hp hr
      obtain ⟨hname, hnodup⟩ := List.nodup_cons.mp hnodup
      obtain ⟨s₁, hremove, h₁, hset₁, hreleased, hlisted, -⟩ := h.removeObjectListener hset
        (fun _ => ⟨x, hread, hx⟩) (fun hmem => hp _ (List.dropLast_subset _ hmem))
        (fun l hl count hread place hplace hmem => hr.two_lt h hl hread hplace hmem)
      obtain ⟨s', heq, h', hset', hread', hp'⟩ := ih s₁ _ hnodup h₁ hset₁
        ((hreleased.read_of_not_mem (hp _)).trans hread)
        (fun place hmem => by
          rw [hlisted] at hmem
          split at hmem
          · exact hp _ (List.mem_filter.mp hmem).1
          · exact hp _ hmem)
        (hr.step h hname hreleased hlisted)
      refine ⟨s', by rw [removeFromNames, hremove]; exact heq, ?_, hset', hread', hp'⟩
      rw [List.map_cons, Registrations.remove_cons]
      · exact h'
      · simpa using hname

/-- **A registration that is taken back.**  The listener itself is what is removed, so it has to have
    references enough until the last of its lists. -/
lemma removeFromNames_added : ∀ (added : List Bytes) (s : PbccEventListener) (R : Registrations)
    (n : Nat), added.Nodup → Represents s R → s.listeners.isSome →
    (added ≠ [] → s.objects.read l = some ⟨r, some n⟩ ∧ 2 * (added.length - 1) < n) →
    (∀ c ∈ added, ∃ ls, s.listed (some c) = ls ++ [l]) →
    (∀ c ∈ added, ∀ j ∈ s.listed (some c), s.registration j = some r → j = l) →
    (∀ place, place ∉ added.map some → l ∉ s.listed place) →
    ∃ s', removeFromNames l added s = some s' ∧ Represents s' (R.remove (added.map some) r) ∧
      s'.listeners.isSome ∧ (∀ place, place ∉ added.map some → s'.array place = s.array place) ∧
      ∀ place, l ∉ s'.listed place := by
  intro added
  induction added with
  | nil =>
      intro s R n _ h hset _ _ _ hl
      refine ⟨s, rfl, ?_, hset, fun _ _ => rfl, fun place => hl place (by simp)⟩
      rw [List.map_nil, Registrations.remove_nil]
      exact h
  | cons name added ih =>
      intro s R n hnodup h hset hread hlast honly hl
      obtain ⟨hname, hnodup⟩ := List.nodup_cons.mp hnodup
      obtain ⟨hread, hn⟩ := hread (List.cons_ne_nil _ _)
      rw [List.length_cons, Nat.add_sub_cancel] at hn
      obtain ⟨ls, hls⟩ := hlast name List.mem_cons_self
      have hmem : l ∈ s.listed (some name) := by simp [hls]
      obtain ⟨s₁, hremove, h₁, hset₁, hreleased, hlisted, harray⟩ := h.removeObjectListener hset
        (fun _ => ⟨_, hread, rfl⟩)
        (by
          have hnot := h.nodup (some name)
          rw [hls, List.nodup_append] at hnot
          rw [hls, List.dropLast_concat]
          exact fun hmem => hnot.2.2 l hmem l (by simp) rfl)
        (by
          intro j hj count hcount place hplace hjplace
          obtain rfl := honly name List.mem_cons_self j hj
            (registrationAt_eq_some.mpr ⟨count, hcount⟩)
          rw [hread] at hcount
          cases hcount
          have hmore : place ∈ added.map some := by
            by_contra hnot
            exact hl place (by simpa [hplace] using hnot) hjplace
          have := List.length_pos_of_mem hmore
          rw [List.length_map] at this
          omega)
      have hother : ∀ c ∈ added, s₁.listed (some c) = s.listed (some c) := by
        intro c hc
        rw [hlisted, if_neg]
        rintro ⟨⟩
        exact hname hc
      obtain ⟨s', heq, h', hset', harray', hl'⟩ := ih s₁ _ (n - 2) hnodup h₁ hset₁
        (by
          intro hne
          have := List.length_pos_of_ne_nil hne
          refine ⟨?_, by omega⟩
          rw [hreleased.read_of_mem hmem hread, if_neg (by omega)])
        (by
          intro c hc
          rw [hother c hc]
          exact hlast c (List.mem_cons_of_mem _ hc))
        (by
          intro c hc j hj hreg
          rw [hother c hc] at hj
          by_cases hold : s.registration j = some r
          · exact honly c (List.mem_cons_of_mem _ hc) j hj hold
          · have hsame : s₁.registration j = s.registration j :=
              registrationAt_congr (hreleased.read_of_ne hold (h.isSome hj))
            exact absurd (hsame.symm.trans hreg) hold)
        (by
          intro place hplace hjplace
          rw [hlisted] at hjplace
          by_cases hp : place = some name
          · rw [if_pos hp] at hjplace
            have hne := (List.mem_filter.mp hjplace).2
            rw [registration, registrationAt_eq_some.mpr ⟨n, hread⟩] at hne
            simp at hne
          · rw [if_neg hp] at hjplace
            exact hl place (by simpa [hp] using hplace) hjplace)
      refine ⟨s', by rw [removeFromNames, hremove]; exact heq, ?_, hset', ?_, hl'⟩
      · rw [List.map_cons, Registrations.remove_cons]
        · exact h'
        · simpa using hname
      · intro place hplace
        rw [List.map_cons, List.mem_cons, not_or] at hplace
        rw [harray' place hplace.2, harray place hplace.1]

lemma removeFromNames_append (rest : List Bytes) : ∀ (names : List Bytes) (s : PbccEventListener),
    removeFromNames p (names ++ rest) s =
      (removeFromNames p names s).bind (removeFromNames p rest) := by
  intro names
  induction names with
  | nil => exact fun _ => rfl
  | cons name names ih =>
      intro s
      rw [List.cons_append, removeFromNames, removeFromNames, Option.bind_assoc]
      congr 1
      funext s₁
      exact ih s₁

/-- Nothing is removed from names without a list. -/
lemma removeFromNames_of_none : ∀ (names : List Bytes) (s : PbccEventListener),
    s.listeners.isSome → (∀ name ∈ names, s.array (some name) = none) →
    removeFromNames p names s = some s := by
  intro names
  induction names with
  | nil => exact fun _ _ _ => rfl
  | cons name names ih =>
      intro s hset hnone
      obtain ⟨set, hs⟩ := Option.isSome_iff_exists.mp hset
      have hfind : set.find? name = none := by
        simpa [array, hs] using hnone name List.mem_cons_self
      have hremove : s.removeObjectListener name p = some s := by
        rw [PbccEventListener.removeObjectListener, hs]
        simp only [Option.bind_eq_bind, Option.bind_some, hfind]
      rw [removeFromNames, hremove]
      exact ih s hset fun c hc => hnone c (List.mem_cons_of_mem _ hc)

end Names

end PubNub
