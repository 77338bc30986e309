import Mathlib.Data.List.Basic
import Mathlib.Data.List.Nodup
import Mathlib.Data.List.Perm.Basic

/-!
# Hash tables with separate chaining

A table is a list of buckets.  An entry sits in the bucket its key hashes to, a new entry goes
to the front of its bucket, and a key that is already present is never overwritten: the first
value stored under a key stays until it is removed.  The well-formedness of the table is part
of its type, so an operation has to establish it once and no later proof repeats it.

What a table stands for is the partial function `find?`.  The rules below compute it for every
operation, and `mem_entries` and `nodup_keys` tie it to the order-dependent listing `entries`.
-/

namespace PubNub

universe u v

variable {K : Type u} {V : Type v}

/-- A chained hash table: every entry is in the bucket of its key, and no bucket holds a key
    twice. -/
structure ChainedHash (hash : Nat → K → Nat) (V : Type v) where
  buckets : List (List (K × V))
  placed : ∀ i, ∀ e ∈ buckets.getD i [], hash buckets.length e.1 = i
  nodup : ∀ i, ((buckets.getD i []).map Prod.fst).Nodup

variable [DecidableEq K]

/-! ## Association lists -/

/-- A key that is found nowhere is the key of no entry. -/
lemma lookup_eq_none_iff_not_mem {k : K} {l : List (K × V)} :
    l.lookup k = none ↔ k ∉ l.map Prod.fst := by
  rw [List.lookup_eq_none_iff]
  constructor
  · intro h hk
    obtain ⟨e, he, rfl⟩ := List.mem_map.mp hk
    simpa using h e he
  · intro h e he
    have hne : k ≠ e.1 := fun hk => h (hk ▸ List.mem_map_of_mem he)
    simpa using hne

/-- In a list without repeated keys, looking a key up finds exactly its entry. -/
lemma lookup_eq_some_iff_mem {k : K} {v : V} : ∀ {l : List (K × V)}, (l.map Prod.fst).Nodup →
    (l.lookup k = some v ↔ (k, v) ∈ l)
  | [], _ => by simp
  | (k', v') :: l, h => by
      simp only [List.map_cons, List.nodup_cons] at h
      by_cases hk : k = k'
      · subst hk
        have hnot : (k, v) ∉ l := fun hw => h.1 (List.mem_map_of_mem (f := Prod.fst) hw)
        simp [hnot, eq_comm]
      · have hb : (k == k') = false := by simpa using hk
        simp [List.lookup_cons, hb, hk, lookup_eq_some_iff_mem h.2]

/-- Looking up in a list with the entry of one key taken out. -/
lemma lookup_eraseP {k k' : K} : ∀ {l : List (K × V)}, (l.map Prod.fst).Nodup →
    (l.eraseP fun e => decide (e.1 = k)).lookup k' = if k' = k then none else l.lookup k'
  | [], _ => by simp
  | (c, w) :: l, h => by
      simp only [List.map_cons, List.nodup_cons] at h
      by_cases hc : c = k
      · subst hc
        rw [List.eraseP_cons_of_pos (by simp)]
        by_cases hk : k' = c
        · subst hk
          simpa only [if_true] using lookup_eq_none_iff_not_mem.mpr h.1
        · have hb : (k' == c) = false := by simpa using hk
          simp only [List.lookup_cons, hb, hk, if_false]
      · rw [List.eraseP_cons_of_neg (by simpa using hc)]
        by_cases hk : k' = c
        · subst hk
          simp [hc]
        · have hb : (k' == c) = false := by simpa using hk
          simp only [List.lookup_cons, hb, lookup_eraseP h.2]

/-! ## Buckets -/

section Buckets

variable {E : Type u}

/-- An entry more in one of the lists. -/
lemma perm_flatten_modify_cons (e : E) : ∀ {bs : List (List E)} {i : Nat}, i < bs.length →
    (bs.modify i (List.cons e)).flatten.Perm (e :: bs.flatten)
  | [], _, h => absurd h (Nat.not_lt_zero _)
  | b :: bs, 0, _ => List.Perm.refl _
  | b :: bs, i + 1, h => by
      rw [List.modify_succ_cons, List.flatten_cons, List.flatten_cons]
      have ih := perm_flatten_modify_cons e (Nat.lt_of_succ_lt_succ h)
      exact (ih.append_left b).trans List.perm_middle

/-- The first entry of a list with a property, and the others. -/
lemma perm_cons_eraseP {p : E → Bool} {e : E} {l : List E} (h : l.find? p = some e) :
    l.Perm (e :: l.eraseP p) := by
  induction l with
  | nil => cases h
  | cons x l ih =>
      by_cases hp : p x = true
      · rw [List.find?_cons_of_pos hp] at h
        cases h
        rw [List.eraseP_cons_of_pos hp]
      · rw [List.find?_cons_of_neg hp] at h
        rw [List.eraseP_cons_of_neg hp]
        exact ((ih h).cons x).trans (List.Perm.swap e x _)

/-- An entry less in one of the lists. -/
lemma perm_flatten_modify_eraseP {p : E → Bool} {e : E} : ∀ {bs : List (List E)} {i : Nat}
    {b : List E}, bs[i]? = some b → b.find? p = some e →
      bs.flatten.Perm (e :: (bs.modify i (List.eraseP p)).flatten)
  | [], _, _, h, _ => by cases h
  | b :: bs, 0, _, h, hfind => by
      cases h
      exact (perm_cons_eraseP hfind).append_right _
  | b :: bs, i + 1, _, h, hfind => by
      rw [List.modify_succ_cons, List.flatten_cons, List.flatten_cons]
      have ih := perm_flatten_modify_eraseP (i := i) h hfind
      exact (ih.append_left b).trans List.perm_middle

/-- A function of the lists that is applied to one of them first. -/
lemma map_modify {F : Type v} {f : List E → List F} {g : List E → List E} {g' : List F → List F}
    (h : ∀ b, f (g b) = g' (f b)) : ∀ (bs : List (List E)) (i : Nat),
      (bs.modify i g).map f = (bs.map f).modify i g'
  | [], i => by rw [List.modify_nil, List.map_nil, List.modify_nil]
  | b :: bs, 0 => by rw [List.modify_zero_cons, List.map_cons, h b]; rfl
  | b :: bs, i + 1 => by
      rw [List.modify_succ_cons, List.map_cons, map_modify h bs i]
      rfl

end Buckets

/-! ## The table -/

namespace ChainedHash

variable {hash : Nat → K → Nat}

/-- The bucket which a key hashes to. -/
def bucket (s : ChainedHash hash V) (k : K) : List (K × V) :=
  s.buckets.getD (hash s.buckets.length k) []

omit [DecidableEq K] in
lemma nodup_bucket (s : ChainedHash hash V) (k : K) : ((s.bucket k).map Prod.fst).Nodup :=
  s.nodup _

/-- The value stored under a key. -/
def find? (s : ChainedHash hash V) (k : K) : Option V := (s.bucket k).lookup k

/-- Whether a key is present. -/
def contains (s : ChainedHash hash V) (k : K) : Bool := (s.find? k).isSome

/-- All entries, bucket by bucket. -/
def entries (s : ChainedHash hash V) : List (K × V) := s.buckets.flatten

omit [DecidableEq K] in
private lemma getD_replicate_nil (n i : Nat) :
    (List.replicate n ([] : List (K × V))).getD i [] = [] := by
  rw [List.getD_eq_getElem?_getD, List.getElem?_replicate]
  split <;> rfl

/-- The table with `length` empty buckets. -/
def alloc (hash : Nat → K → Nat) (V : Type v) (length : Nat) : ChainedHash hash V where
  buckets := List.replicate length []
  placed i e he := by
    rw [getD_replicate_nil] at he
    exact absurd he List.not_mem_nil
  nodup i := by
    rw [getD_replicate_nil]
    exact List.nodup_nil

omit [DecidableEq K] in
private lemma getD_modify (bs : List (List (K × V))) (f : List (K × V) → List (K × V))
    (i j : Nat) : (bs.modify i f).getD j [] =
      if i = j ∧ j < bs.length then f (bs.getD j []) else bs.getD j [] := by
  rw [List.getD_eq_getElem?_getD, List.getElem?_modify, List.getD_eq_getElem?_getD]
  by_cases hj : j < bs.length
  · by_cases hi : i = j <;> simp [hj, hi]
  · simp [hj]

/-- Replaces the bucket of `k` by one that holds the same entries or entries of `k`. -/
def setBucket (s : ChainedHash hash V) (k : K) (f : List (K × V) → List (K × V))
    (hmem : ∀ e ∈ f (s.bucket k), e.1 = k ∨ e ∈ s.bucket k)
    (hnodup : ((f (s.bucket k)).map Prod.fst).Nodup) : ChainedHash hash V where
  buckets := s.buckets.modify (hash s.buckets.length k) f
  placed i e he := by
    rw [getD_modify] at he
    rw [List.length_modify]
    split at he
    · rename_i h
      obtain ⟨rfl, _⟩ := h
      rcases hmem e he with hk | hb
      · rw [hk]
      · exact s.placed _ e hb
    · exact s.placed i e he
  nodup i := by
    rw [getD_modify]
    split
    · rename_i h
      obtain ⟨rfl, _⟩ := h
      exact hnodup
    · exact s.nodup i

/-- Stores a value under a key unless the key is present. -/
def insertNew (s : ChainedHash hash V) (k : K) (v : V) : ChainedHash hash V :=
  match h : s.find? k with
  | some _ => s
  | none => s.setBucket k (List.cons (k, v))
      (fun e he => by
        rcases List.mem_cons.mp he with rfl | he
        · exact .inl rfl
        · exact .inr he)
      (by
        rw [List.map_cons, List.nodup_cons]
        exact ⟨lookup_eq_none_iff_not_mem.mp h, s.nodup _⟩)

/-- Removes a key. -/
def erase (s : ChainedHash hash V) (k : K) : ChainedHash hash V :=
  s.setBucket k (List.eraseP fun e => decide (e.1 = k))
    (fun _ he => .inr (List.mem_of_mem_eraseP he))
    ((s.nodup _).sublist (List.eraseP_sublist.map _))

/-- Stores another value under a key that is present. -/
def replace (s : ChainedHash hash V) (k : K) (v : V) : ChainedHash hash V :=
  s.setBucket k (List.map fun e => if e.1 = k then (k, v) else e)
    (fun e he => by
      obtain ⟨e', he', rfl⟩ := List.mem_map.mp he
      split
      · exact .inl rfl
      · exact .inr he')
    (by
      have hkeys : ∀ l : List (K × V),
          (l.map fun e => if e.1 = k then (k, v) else e).map Prod.fst = l.map Prod.fst := by
        intro l
        rw [List.map_map]
        refine List.map_congr_left fun e _ => ?_
        by_cases he : e.1 = k <;> simp [he]
      rw [hkeys]
      exact s.nodup _)

/-- Adds the entries of the second table, in the order of its listing. -/
def union (s t : ChainedHash hash V) : ChainedHash hash V :=
  t.entries.foldl (fun acc e => acc.insertNew e.1 e.2) s

/-! ## What the operations do to the lookup -/

section Lookup

variable {s t : ChainedHash hash V} {k k' : K} {v : V}

@[simp] lemma find?_alloc (length : Nat) : (alloc hash V length).find? k = none := by
  simp only [find?, bucket, alloc, getD_replicate_nil, List.lookup_nil]

omit [DecidableEq K] in
@[simp] lemma entries_alloc (length : Nat) : (alloc hash V length).entries = [] :=
  List.flatten_replicate_nil

omit [DecidableEq K] in
@[simp] lemma length_setBucket (f : List (K × V) → List (K × V)) (hm hn) :
    (s.setBucket k f hm hn).buckets.length = s.buckets.length :=
  List.length_modify ..

omit [DecidableEq K] in
lemma bucket_setBucket (f : List (K × V) → List (K × V)) (hm hn)
    (hlt : hash s.buckets.length k < s.buckets.length) :
    (s.setBucket k f hm hn).bucket k' =
      if hash s.buckets.length k = hash s.buckets.length k' then f (s.bucket k)
      else s.bucket k' := by
  simp only [bucket, length_setBucket]
  simp only [setBucket, getD_modify]
  by_cases hk : hash s.buckets.length k = hash s.buckets.length k'
  · simp [← hk, hlt]
  · simp [hk]

lemma buckets_insertNew (h : s.find? k = none) : (s.insertNew k v).buckets =
    s.buckets.modify (hash s.buckets.length k) (List.cons (k, v)) := by
  unfold insertNew
  split
  · rename_i w hw
    rw [h] at hw
    cases hw
  · rfl

lemma buckets_erase : (s.erase k).buckets =
    s.buckets.modify (hash s.buckets.length k) (List.eraseP fun e => decide (e.1 = k)) := rfl

@[simp] lemma length_insertNew : (s.insertNew k v).buckets.length = s.buckets.length := by
  unfold insertNew
  split
  · rfl
  · exact length_setBucket ..

@[simp] lemma length_erase : (s.erase k).buckets.length = s.buckets.length :=
  length_setBucket ..

@[simp] lemma length_replace : (s.replace k v).buckets.length = s.buckets.length :=
  length_setBucket ..

@[simp] lemma length_foldl_insertNew (es : List (K × V)) (s : ChainedHash hash V) :
    (es.foldl (fun acc e => acc.insertNew e.1 e.2) s).buckets.length = s.buckets.length := by
  induction es generalizing s with
  | nil => rfl
  | cons e es ih => rw [List.foldl_cons, ih, length_insertNew]

@[simp] lemma length_union : (s.union t).buckets.length = s.buckets.length :=
  length_foldl_insertNew _ _

/-- A key that is absent gets the new value, every other key keeps what it had. -/
lemma find?_insertNew (hlt : hash s.buckets.length k < s.buckets.length) :
    (s.insertNew k v).find? k' = (s.find? k').or (if k' = k then some v else none) := by
  unfold insertNew
  split
  · rename_i w hw
    by_cases hk : k' = k
    · subst hk
      simp [hw]
    · simp [hk]
  · rename_i hnone
    rw [find?, bucket_setBucket _ _ _ hlt]
    by_cases hk : k' = k
    · subst hk
      simp [hnone]
    · have hb : (k' == k) = false := by simpa using hk
      by_cases hh : hash s.buckets.length k = hash s.buckets.length k'
      · simp [hh, hk, List.lookup_cons, hb, find?, bucket]
      · simp [hh, hk, find?]

/-- Removing a key removes nothing else. -/
lemma find?_erase (hlt : hash s.buckets.length k < s.buckets.length) :
    (s.erase k).find? k' = if k' = k then none else s.find? k' := by
  rw [find?, erase, bucket_setBucket _ _ _ hlt]
  by_cases hh : hash s.buckets.length k = hash s.buckets.length k'
  · rw [if_pos hh, lookup_eraseP (s.nodup_bucket k)]
    simp only [find?, bucket, hh]
  · have hk : k' ≠ k := fun h => hh (by rw [h])
    rw [if_neg hh, if_neg hk, find?]

/-- A replaced value is found under its key, every other key keeps what it had. -/
lemma find?_replace (hlt : hash s.buckets.length k < s.buckets.length) :
    (s.replace k v).find? k' = if k' = k then (s.find? k).map fun _ => v else s.find? k' := by
  have hlookup : ∀ l : List (K × V),
      (l.map fun e => if e.1 = k then (k, v) else e).lookup k' =
        if k' = k then (l.lookup k).map fun _ => v else l.lookup k' := by
    intro l
    induction l with
    | nil => simp
    | cons e l ih =>
        obtain ⟨c, w⟩ := e
        by_cases hc : c = k
        · subst hc
          by_cases hk : k' = c
          · subst hk
            simp
          · have hb : (k' == c) = false := by simpa using hk
            simpa [List.lookup_cons, hb, hk] using ih
        · have hkc : (k == c) = false := by simpa using Ne.symm hc
          by_cases hk : k' = c
          · subst hk
            simp [hc]
          · have hb : (k' == c) = false := by simpa using hk
            simpa [List.lookup_cons, hb, hc, hkc] using ih
  rw [find?, replace, bucket_setBucket _ _ _ hlt]
  by_cases hh : hash s.buckets.length k = hash s.buckets.length k'
  · rw [if_pos hh, hlookup]
    simp only [find?, bucket, hh]
  · have hk : k' ≠ k := fun h => hh (by rw [h])
    rw [if_neg hh, if_neg hk, find?]

/-- The listing holds exactly the pairs which the lookup finds. -/
lemma mem_entries : (k, v) ∈ s.entries ↔ s.find? k = some v := by
  rw [find?, lookup_eq_some_iff_mem (s.nodup_bucket k), entries, List.mem_flatten]
  constructor
  · rintro ⟨b, hb, hv⟩
    obtain ⟨i, hi, rfl⟩ := List.getElem_of_mem hb
    have hD : s.buckets.getD i [] = s.buckets[i] := by
      rw [List.getD_eq_getElem?_getD, List.getElem?_eq_getElem hi, Option.getD_some]
    have hp := s.placed i (k, v) (hD ▸ hv)
    rw [bucket, hp, hD]
    exact hv
  · intro hv
    have hlt : hash s.buckets.length k < s.buckets.length := by
      by_contra hge
      rw [bucket, List.getD_eq_getElem?_getD, List.getElem?_eq_none (by omega)] at hv
      exact absurd hv List.not_mem_nil
    refine ⟨s.buckets[hash s.buckets.length k], List.getElem_mem hlt, ?_⟩
    rwa [bucket, List.getD_eq_getElem?_getD, List.getElem?_eq_getElem hlt] at hv

omit [DecidableEq K] in
/-- No key is listed twice. -/
lemma nodup_keys (s : ChainedHash hash V) : (s.entries.map Prod.fst).Nodup := by
  have hD : ∀ i (hi : i < s.buckets.length), s.buckets.getD i [] = s.buckets[i] := fun i hi => by
    rw [List.getD_eq_getElem?_getD, List.getElem?_eq_getElem hi, Option.getD_some]
  rw [entries, List.map_flatten, List.nodup_flatten]
  constructor
  · intro l hl
    obtain ⟨b, hb, rfl⟩ := List.mem_map.mp hl
    obtain ⟨i, hi, rfl⟩ := List.getElem_of_mem hb
    exact hD i hi ▸ s.nodup i
  · rw [List.pairwise_map, List.pairwise_iff_getElem]
    intro i j hi hj hij k hk hk'
    obtain ⟨e, he, rfl⟩ := List.mem_map.mp hk
    obtain ⟨e', he', heq⟩ := List.mem_map.mp hk'
    have hpi := s.placed i e (hD i hi ▸ he)
    have hpj := s.placed j e' (hD j hj ▸ he')
    rw [heq] at hpj
    omega

/-- The listing is a list in which keys are looked up as in the table. -/
lemma lookup_entries (t : ChainedHash hash V) (k : K) : t.entries.lookup k = t.find? k := by
  cases h : t.find? k with
  | none =>
      rw [lookup_eq_none_iff_not_mem]
      intro hk
      obtain ⟨⟨k', v⟩, he, rfl⟩ := List.mem_map.mp hk
      rw [mem_entries.mp he] at h
      exact absurd h (by simp)
  | some v => exact (lookup_eq_some_iff_mem t.nodup_keys).mpr (mem_entries.mpr h)

omit [DecidableEq K] in
/-- What a replaced bucket lists was listed before or is in the new bucket. -/
lemma mem_entries_setBucket {f : List (K × V) → List (K × V)} {hm hn} {e : K × V}
    (he : e ∈ (s.setBucket k f hm hn).entries) : e ∈ f (s.bucket k) ∨ e ∈ s.entries := by
  obtain ⟨b, hb, he⟩ := List.mem_flatten.mp he
  obtain ⟨i, hi, rfl⟩ := List.getElem_of_mem hb
  have hD : (s.setBucket k f hm hn).buckets.getD i [] = (s.setBucket k f hm hn).buckets[i] := by
    rw [List.getD_eq_getElem?_getD, List.getElem?_eq_getElem hi, Option.getD_some]
  rw [← hD, setBucket, getD_modify] at he
  rw [length_setBucket] at hi
  split at he
  · rename_i h
    rw [← h.1] at he
    exact .inl he
  · refine .inr (List.mem_flatten.mpr ⟨s.buckets[i], List.getElem_mem hi, ?_⟩)
    rwa [List.getD_eq_getElem?_getD, List.getElem?_eq_getElem hi, Option.getD_some] at he

omit [DecidableEq K] in
private lemma mem_entries_of_mem_bucket {e : K × V} (he : e ∈ s.bucket k) : e ∈ s.entries := by
  rw [bucket, List.getD_eq_getElem?_getD] at he
  cases hb : s.buckets[hash s.buckets.length k]? with
  | none => simp [hb] at he
  | some b =>
      rw [hb, Option.getD_some] at he
      exact List.mem_flatten.mpr ⟨b, List.mem_of_getElem? hb, he⟩

/-- An insertion lists nothing else that was not listed before. -/
lemma mem_entries_insertNew {e : K × V} (he : e ∈ (s.insertNew k v).entries) :
    e = (k, v) ∨ e ∈ s.entries := by
  unfold insertNew at he
  split at he
  · exact .inr he
  · rcases mem_entries_setBucket he with h | h
    · rcases List.mem_cons.mp h with h | h
      · exact .inl h
      · exact .inr (mem_entries_of_mem_bucket h)
    · exact .inr h

omit [DecidableEq K] in
/-- A listed key hashes to a bucket that exists. -/
lemma hash_lt_of_mem_entries {e : K × V} (he : e ∈ s.entries) :
    hash s.buckets.length e.1 < s.buckets.length := by
  obtain ⟨b, hb, he⟩ := List.mem_flatten.mp he
  obtain ⟨i, hi, rfl⟩ := List.getElem_of_mem hb
  have hD : s.buckets.getD i [] = s.buckets[i] := by
    rw [List.getD_eq_getElem?_getD, List.getElem?_eq_getElem hi, Option.getD_some]
  rw [s.placed i e (hD ▸ he)]
  exact hi

/-- A removal lists nothing new. -/
lemma mem_entries_erase {e : K × V} (he : e ∈ (s.erase k).entries) : e ∈ s.entries := by
  rcases mem_entries_setBucket he with h | h
  · exact mem_entries_of_mem_bucket (List.mem_of_mem_eraseP h)
  · exact h

/-- A removal keeps the entries of the other keys. -/
lemma mem_entries_erase_of_ne (hk : k ∈ s.entries.map Prod.fst) (hne : k' ≠ k)
    (he : (k', v) ∈ s.entries) : (k', v) ∈ (s.erase k).entries := by
  obtain ⟨e, hm, rfl⟩ := List.mem_map.mp hk
  rw [mem_entries] at he ⊢
  rw [find?_erase (hash_lt_of_mem_entries hm), if_neg hne, he]

private lemma find?_foldl_insertNew (hlt : ∀ k, hash s.buckets.length k < s.buckets.length)
    (es : List (K × V)) : (es.foldl (fun acc e => acc.insertNew e.1 e.2) s).find? k =
      (s.find? k).or (es.lookup k) := by
  induction es generalizing s with
  | nil => simp
  | cons e es ih =>
      obtain ⟨c, w⟩ := e
      rw [List.foldl_cons, ih (by simpa using hlt), find?_insertNew (hlt _), Option.or_assoc]
      by_cases hk : k = c
      · simp only [hk, if_true, List.lookup_cons_self, Option.some_or]
      · have hb : (k == c) = false := by simpa using hk
        simp only [hk, if_false, List.lookup_cons, hb, Option.none_or]

/-- The union finds what either table finds, the first table first. -/
theorem find?_union (hlt : ∀ k, hash s.buckets.length k < s.buckets.length) :
    (s.union t).find? k = (s.find? k).or (t.find? k) := by
  rw [union, find?_foldl_insertNew hlt, lookup_entries]

end Lookup

end ChainedHash

end PubNub
