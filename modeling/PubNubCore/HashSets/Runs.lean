import PubNubCore.HashSets.Operations
import PubNubCore.Lib.Machine

/-!
# Hash sets as maps

Every run of the operations of `lib/pbhash_set.h` on any number of sets, which may share elements.
`MapStep` says what an operation does to the maps that the sets are; `HashFits` is what the functions take
for granted:

* a destructor is not called for what another node refers to, although a node that has been added to two
  sets has a counter in each of them;
* `pbhash_set_subtract` passes the pointers of the other set's nodes to `pbhash_set_remove`, which sets
  the one to the containing object to `NULL` where it has called the destructor;
* the buckets are counted by an `int`, and there is one at least.

`pbhash_set_is_equal` looks for the *elements* of one set among the keys of the other one, so that it is
right for elements without containing objects (`EqualFits`).
-/

namespace PubNub

open HashWorld

/-! ## Steps -/

inductive HashOp
  | alloc (length : Nat) (contentType : HashContentType) (free : Bool)
  | add (i element containing : Nat)
  | remove (i element : Nat)
  | union (i j : Nat) (duplicates : Bool)
  | subtract (i j : Nat)

/-- What the caller adds has been allocated since it may have been destroyed. -/
def hashStep (text : Nat → Bytes) (memory : PbhashNode → Bool) (w : HashWorld) :
    HashOp → Option (PbhashSetRes × HashWorld)
  | .alloc length contentType free =>
      some (.ok, { w with sets := w.sets ++ [PbhashSetT.alloc length contentType free] })
  | .add i element containing =>
      let w : HashWorld :=
        { w with destroyed := w.destroyed.filter fun x => x ≠ element ∧ x ≠ containing }
      w.add text (memory ⟨element, containing, w.counters.length⟩) i element containing
  | .remove i element => (w.remove text i element).map fun r => (r.1, r.2.2)
  | .union i j duplicates => w.union text memory i j duplicates
  | .subtract i j => w.subtract text i j

/-- All hash sets of a program. -/
def hashMachine (text : Nat → Bytes) : Machine HashWorld ((PbhashNode → Bool) × HashOp) where
  init := ⟨[], [], []⟩
  step w op := (hashStep text op.1 w op.2).map Prod.snd

/-! ## Maps -/

/-- All sets but one are what they were. -/
def Unchanged (w w' : HashWorld) (i : Nat) : Prop :=
  ∀ k < w.sets.length, k ≠ i → w'.sets[k]? = w.sets[k]?

/-- What an operation does to the maps. -/
def MapStep (text : Nat → Bytes) (w : HashWorld) (answer : PbhashSetRes) (w' : HashWorld) :
    HashOp → Prop
  | .alloc _ contentType _ => Unchanged w w' w.sets.length ∧
      ∃ set', w'.sets = w.sets ++ [set'] ∧ set'.contentType = contentType ∧
        set'.map text = fun _ => none
  | .add i element containing => Unchanged w w' i ∧
      ∃ set set', w.sets[i]? = some set ∧ w'.sets[i]? = some set' ∧
        Added text set element containing answer set'
  | .remove i element => Unchanged w w' i ∧
      ∃ set set', w.sets[i]? = some set ∧ w'.sets[i]? = some set' ∧
        Removed text set element answer set'
  | .union i j _ => Unchanged w w' i ∧
      ∃ set otherSet set', w.sets[i]? = some set ∧ w.sets[j]? = some otherSet ∧
        w'.sets[i]? = some set' ∧ set'.contentType = set.contentType ∧
        (answer = .ok ∧ (∀ k, set'.map text k = (set.map text k).or (otherSet.map text k)) ∨
          answer = .outOfMemory ∧ ∀ k, set'.map text k = set.map text k ∨
            set.map text k = none ∧ set'.map text k = otherSet.map text k)
  | .subtract i j => Unchanged w w' i ∧
      ∃ set otherSet set', w.sets[i]? = some set ∧ w.sets[j]? = some otherSet ∧
        w'.sets[i]? = some set' ∧ set'.contentType = set.contentType ∧
        ∀ k, set'.map text k = if (otherSet.map text k).isSome then none else set.map text k

/-- What an operation takes for granted. -/
def HashFits (text : Nat → Bytes) (w : HashWorld) : (PbhashNode → Bool) × HashOp → Prop
  | (_, .alloc length _ _) => 0 < length ∧ length < 2 ^ 31
  | (_, .add i element _) => i < w.sets.length ∧ element ≠ 0
  | (_, .remove i element) => ∃ set, w.sets[i]? = some set ∧
      (element ≠ 0 → ∀ node ∈ set.nodes,
        hashKey text set.contentType node.value = hashKey text set.contentType element →
          w.Releasable set node)
  | (_, .union i j _) => ∃ set otherSet, w.sets[i]? = some set ∧ w.sets[j]? = some otherSet ∧
      set.contentType = otherSet.contentType
  | (_, .subtract i j) => i ≠ j ∧ ∃ set otherSet, w.sets[i]? = some set ∧
      w.sets[j]? = some otherSet ∧ set.contentType = otherSet.contentType ∧
      SubtractFits text w set otherSet.nodes

/-! ## One step -/

variable {text : Nat → Bytes} {w : HashWorld}

lemma HashWorld.Sound.forget (hw : Sound text w) {destroyed : List Nat}
    (h : ∀ x ∈ destroyed, x ∈ w.destroyed) : Sound text { w with destroyed := destroyed } :=
  ⟨hw.represents, hw.length_lt, hw.exact, hw.same,
    fun n hn => ⟨fun hin => (hw.alive n hn).1 (h _ hin), fun hin => (hw.alive n hn).2 (h _ hin)⟩,
    hw.value_ne⟩

lemma PbhashSetT.represents_alloc (text : Nat → Bytes) {length : Nat} (hpos : 0 < length)
    (contentType : HashContentType) (free : Bool) :
    ∃ t, (alloc length contentType free).Represents text t := by
  refine ⟨ChainedHash.alloc keyHash PbhashNode length, ?_, ?_, ?_⟩
  · rw [ChainedHash.alloc, alloc, List.map_replicate, List.map_nil]
  · rw [nodes, alloc, List.flatten_replicate_nil]
    rfl
  · rw [alloc, List.length_replicate]
    exact hpos

lemma nodes_alloc (length : Nat) (contentType : HashContentType) (free : Bool) :
    (PbhashSetT.alloc length contentType free).nodes = [] := List.flatten_replicate_nil

/-- A set without nodes more. -/
lemma HashWorld.Sound.alloc (hw : Sound text w) {length : Nat} (hpos : 0 < length)
    (hlt : length < 2 ^ 31) (contentType : HashContentType) (free : Bool) :
    Sound text { w with sets := w.sets ++ [PbhashSetT.alloc length contentType free] } := by
  have hnodes : (w.sets ++ [PbhashSetT.alloc length contentType free]).flatMap PbhashSetT.nodes = w.nodes := by
    rw [List.flatMap_append, List.flatMap_singleton, nodes_alloc, List.append_nil]
    rfl
  have hnodes' : HashWorld.nodes
      { w with sets := w.sets ++ [PbhashSetT.alloc length contentType free] } = w.nodes := hnodes
  refine ⟨fun s hs => ?_, fun s hs => ?_, ?_, ?_, ?_, ?_⟩
  · rcases List.mem_append.mp hs with hs | hs
    · exact hw.represents s hs
    · rw [List.mem_singleton.mp hs]
      exact PbhashSetT.represents_alloc text hpos contentType free
  · rcases List.mem_append.mp hs with hs | hs
    · exact hw.length_lt s hs
    · rw [List.mem_singleton.mp hs, PbhashSetT.alloc, List.length_replicate]
      exact hlt
  · rw [hnodes']
    exact hw.exact
  · rw [hnodes']
    exact hw.same
  · rw [hnodes']
    exact hw.alive
  · rw [hnodes']
    exact hw.value_ne

lemma unchanged_set {w' : HashWorld} {i : Nat} {set' : PbhashSetT} (h : w'.sets = w.sets.set i set') :
    Unchanged w w' i := fun k _ hk => by rw [h, List.getElem?_set_ne (Ne.symm hk)]

lemma HashWorld.Sound.iterate (hw : Sound text w) {j : Nat} {otherSet : PbhashSetT}
    (hj : w.sets[j]? = some otherSet) : otherSet.iterate = some otherSet.nodes := by
  rw [PbhashSetT.iterate, if_pos (hw.length_lt _ (List.mem_of_getElem? hj))]

/-- Uniting the nodes of a set is uniting the set. -/
lemma union_step (hw : Sound text w) (memory : PbhashNode → Bool) {i j : Nat} (duplicates : Bool)
    (hfits : HashFits text w (memory, .union i j duplicates)) :
    ∃ answer w', w.union text memory i j duplicates = some (answer, w') ∧ Sound text w' ∧
      MapStep text w answer w' (.union i j duplicates) := by
  obtain ⟨set, otherSet, hi, hj, htypes⟩ := hfits
  have hlt := (List.getElem?_eq_some_iff.mp hi).1
  have hmem := List.mem_of_getElem? hi
  have hnodes : ∀ n ∈ otherSet.nodes, n ∈ w.nodes := fun n hn => Sound.mem_nodes hj hn
  have hmap : ∀ k, pairOf text set.contentType otherSet.nodes k = otherSet.map text k := fun k => by
    rw [htypes]
    rfl
  rw [HashWorld.union, hi, hj]
  simp only [Option.bind_eq_bind, Option.bind_some, hw.iterate hj]
  cases duplicates with
  | false =>
      have hnone : ∀ d ∈ (none : Option Nat), d ≠ i ∧ d < w.sets.length := fun _ hd => by cases hd
      obtain ⟨answer, w', set', hloop, hw', hi', -, hframe, hunited⟩ :=
        hw.unionLoop memory (.inl rfl) hi hnone hnodes
      obtain ⟨htype, hcases⟩ := hunited rfl
      simp only [hmap] at hcases
      exact ⟨answer, w', hloop, hw', fun k _ hk => hframe k hk (by simp), set, otherSet, set', hi, hj,
        hi', htype, hcases⟩
  | true =>
      obtain ⟨t, ht⟩ := hw.represents set hmem
      have hw₁ := hw.alloc ht.buckets_pos (hw.length_lt set hmem) set.contentType false
      have hi₁ : (w.sets ++ [PbhashSetT.alloc set.buckets.length set.contentType false])[i]? = some set := by
        rw [List.getElem?_append_left hlt]
        exact hi
      have hgrows : ∀ n ∈ otherSet.nodes,
          n ∈ (w.sets ++ [PbhashSetT.alloc set.buckets.length set.contentType false]).flatMap PbhashSetT.nodes :=
        fun n hn => by
          rw [List.flatMap_append]
          exact List.mem_append_left _ (hnodes n hn)
      have hd : ∀ d ∈ some w.sets.length, d ≠ i ∧
          d < (w.sets ++ [PbhashSetT.alloc set.buckets.length set.contentType false]).length := by
        intro d hd
        cases hd
        rw [List.length_append, List.length_singleton]
        omega
      obtain ⟨answer, w', set', hloop, hw', hi', -, hframe, hunited⟩ :=
        hw₁.unionLoop memory (.inl rfl) hi₁ hd hgrows
      obtain ⟨htype, hcases⟩ := hunited rfl
      simp only [hmap] at hcases
      refine ⟨answer, w', hloop, hw', fun k hk hne => ?_, set, otherSet, set', hi, hj, hi', htype,
        hcases⟩
      have hnot : k ∉ some w.sets.length := fun heq => absurd (Option.some.inj heq) (by omega)
      rw [hframe k hne hnot, List.getElem?_append_left hk]

/-- **One operation.** -/
lemma hashStep_right (hw : Sound text w) (memory : PbhashNode → Bool) (op : HashOp)
    (hfits : HashFits text w (memory, op)) :
    ∃ answer w', hashStep text memory w op = some (answer, w') ∧ Sound text w' ∧
      MapStep text w answer w' op := by
  cases op with
  | alloc length contentType free =>
      refine ⟨.ok, _, rfl, hw.alloc hfits.1 hfits.2 contentType free, fun k hk _ => ?_, _, rfl, rfl, ?_⟩
      · exact List.getElem?_append_left hk
      · funext k
        rw [PbhashSetT.map, nodes_alloc]
        rfl
  | add i element containing =>
      obtain ⟨hlt, hne⟩ := hfits
      have hw₁ : Sound text
          { w with destroyed := w.destroyed.filter fun x => x ≠ element ∧ x ≠ containing } :=
        hw.forget fun x hx => (List.mem_filter.mp hx).1
      have halive : element ∉ w.destroyed.filter (fun x => x ≠ element ∧ x ≠ containing) ∧
          containing ∉ w.destroyed.filter (fun x => x ≠ element ∧ x ≠ containing) := by
        refine ⟨fun hin => ?_, fun hin => ?_⟩
        · exact (of_decide_eq_true (List.mem_filter.mp hin).2).1 rfl
        · exact (of_decide_eq_true (List.mem_filter.mp hin).2).2 rfl
      obtain ⟨answer, w', set', hadd, hw', hsets, -, -, hadded⟩ :=
        hw₁.add (List.getElem?_eq_getElem hlt) (memory ⟨element, containing, w.counters.length⟩) halive
          hne
      refine ⟨answer, w', hadd, hw', unchanged_set hsets, _, set', List.getElem?_eq_getElem hlt, ?_,
        hadded⟩
      rw [hsets]
      exact List.getElem?_set_self hlt
  | remove i element =>
      obtain ⟨set, hi, hrelease⟩ := hfits
      obtain ⟨answer, removed, w', set', hremove, hw', hsets, hremoved, -⟩ := hw.remove hi hrelease
      refine ⟨answer, w', by rw [hashStep, hremove]; rfl, hw', unchanged_set hsets, set, set', hi, ?_,
        hremoved⟩
      rw [hsets]
      exact List.getElem?_set_self (List.getElem?_eq_some_iff.mp hi).1
  | union i j duplicates => exact union_step hw memory duplicates hfits
  | subtract i j =>
      obtain ⟨hij, set, otherSet, hi, hj, htypes, hsubtract⟩ := hfits
      obtain ⟨answer, w', set', hloop, hw', hsets, htype, hmap⟩ :=
        hw.subtractLoop hij .ok hi hsubtract
          fun n hn => hw.value_ne n (Sound.mem_nodes hj hn)
      refine ⟨answer, w', ?_, hw', unchanged_set hsets, set, otherSet, set', hi, hj, ?_, htype,
        fun k => ?_⟩
      · rw [hashStep, HashWorld.subtract, hj]
        simp only [Option.bind_eq_bind, Option.bind_some, hw.iterate hj]
        exact hloop
      · rw [hsets]
        exact List.getElem?_set_self (List.getElem?_eq_some_iff.mp hi).1
      · rw [hmap, htypes]
        rfl

/-! ## Equality -/

namespace PbhashSetT

/-- The keys of a set. -/
def keys (text : Nat → Bytes) (set : PbhashSetT) : List HashKey :=
  set.nodes.map fun node => hashKey text set.contentType node.value

/-- The element under a key: the containing object, or the key itself. -/
def element? (text : Nat → Bytes) (set : PbhashSetT) (k : HashKey) : Option (Nat ⊕ HashKey) :=
  (set.map text k).map fun pair =>
    if pair.2 ≠ 0 then .inl pair.2 else .inr (hashKey text set.contentType pair.1)

variable {set otherSet : PbhashSetT} {t t' : ChainedHash keyHash PbhashNode}

namespace Represents

lemma keys_eq (h : set.Represents text t) : set.keys text = t.entries.map Prod.fst := by
  rw [h.entries_eq, List.map_map]
  rfl

lemma nodup_keys (h : set.Represents text t) : (set.keys text).Nodup := h.keys_eq ▸ t.nodup_keys

lemma isSome_map_iff (h : set.Represents text t) (k : HashKey) :
    (set.map text k).isSome = true ↔ k ∈ set.keys text := by
  rw [h.map_eq, h.keys_eq, Option.isSome_map, ← ChainedHash.lookup_entries, ← not_iff_not,
    Bool.not_eq_true, Option.isSome_eq_false_iff, Option.isNone_iff_eq_none, lookup_eq_none_iff_not_mem]

/-- Without containing objects the elements are the keys. -/
lemma element?_eq (h : set.Represents text t) (hplain : ∀ n ∈ set.nodes, n.containing = 0)
    (k : HashKey) : set.element? text k = if k ∈ set.keys text then some (.inr k) else none := by
  rw [element?, h.map_eq]
  cases hfind : t.find? k with
  | none =>
      have hnot : k ∉ set.keys text := fun hin => by
        have hsome := (h.isSome_map_iff k).mpr hin
        rw [h.map_eq, hfind] at hsome
        cases hsome
      rw [if_neg hnot]
      rfl
  | some node =>
      obtain ⟨hnode, hkey⟩ := h.mem_of_find? hfind
      have hin : k ∈ set.keys text := hkey ▸ List.mem_map_of_mem hnode
      simp only [Option.map_some, hplain node hnode, ne_eq, not_true_eq_false, if_false, hkey, hin,
        if_true]

lemma length_keys (h : set.Represents text t) : (set.keys text).length = set.elementsCount := by
  rw [keys, List.length_map, h.count_eq]

/-- `pbhash_set_contains` for each of some values. -/
lemma containsAll_eq (h : set.Represents text t) {values : List Nat} (hne : ∀ v ∈ values, v ≠ 0) :
    set.containsAll text values =
      some (decide (∀ v ∈ values, hashKey text set.contentType v ∈ set.keys text)) := by
  induction values with
  | nil => rfl
  | cons v values ih =>
      have hv := hne v List.mem_cons_self
      have hsome : (t.find? (hashKey text set.contentType v)).isSome = true ↔
          hashKey text set.contentType v ∈ set.keys text := by
        rw [← h.isSome_map_iff, h.map_eq, Option.isSome_map]
      rw [containsAll, h.lookup_eq fun hnull => hv hnull.2]
      simp only [Option.bind_eq_bind, Option.bind_some, List.forall_mem_cons]
      by_cases hin : hashKey text set.contentType v ∈ set.keys text
      · rw [if_pos (hsome.mpr hin), ih fun v hv => hne v (List.mem_cons_of_mem _ hv)]
        simp only [hin, true_and]
      · rw [if_neg fun hfound => hin (hsome.mp hfound)]
        simp only [hin, false_and, decide_false]

end Represents

end PbhashSetT

/-- Two sets have the same keys, with the same elements. -/
def SameElements (text : Nat → Bytes) (set otherSet : PbhashSetT) : Prop :=
  ∀ k, set.element? text k = otherSet.element? text k

/-- What `pbhash_set_is_equal` takes for granted: there is memory for the elements, an `int` counts them,
    and they have no containing objects; and it tells an empty set from an empty set for other keys. -/
def EqualFits (memory : Bool) (set otherSet : PbhashSetT) : Prop :=
  set.contentType ≠ otherSet.contentType ∧ (set.elementsCount ≠ 0 ∨ otherSet.elementsCount ≠ 0) ∨
    set.contentType = otherSet.contentType ∧ (set.elementsCount ≠ otherSet.elementsCount ∨
      (memory = true ∨ set.elementsCount = 0) ∧ set.elementsCount < 2 ^ 31 ∧
        (∀ n ∈ set.nodes, n.containing = 0) ∧ ∀ n ∈ otherSet.nodes, n.containing = 0)

section Equality

variable {set otherSet : PbhashSetT} {t t' : ChainedHash keyHash PbhashNode}

lemma SameElements.mem_keys_iff (h : set.Represents text t) (h' : otherSet.Represents text t')
    (hsame : SameElements text set otherSet) (k : HashKey) :
    k ∈ set.keys text ↔ k ∈ otherSet.keys text := by
  have hsome := congrArg Option.isSome (hsame k)
  rw [PbhashSetT.element?, PbhashSetT.element?, Option.isSome_map, Option.isSome_map] at hsome
  rw [← h.isSome_map_iff, ← h'.isSome_map_iff, hsome]

lemma SameElements.symm (hsame : SameElements text set otherSet) : SameElements text otherSet set :=
  fun k => (hsame k).symm

/-- Sets for different kinds of keys are not the same, unless both are empty. -/
lemma SameElements.count_eq_zero (h : set.Represents text t) (h' : otherSet.Represents text t')
    (htypes : set.contentType ≠ otherSet.contentType) (hsame : SameElements text set otherSet) :
    set.elementsCount = 0 := by
  rw [← h.length_keys, List.length_eq_zero_iff, List.eq_nil_iff_forall_not_mem]
  intro k hk
  have hk' := (hsame.mem_keys_iff h h' k).mp hk
  obtain ⟨n, -, rfl⟩ := List.mem_map.mp hk
  obtain ⟨n', -, hkey⟩ := List.mem_map.mp hk'
  cases htype : set.contentType with
  | generic =>
      cases htype' : otherSet.contentType with
      | generic => exact htypes (htype.trans htype'.symm)
      | char =>
          rw [htype, htype'] at hkey
          cases hkey
  | char =>
      cases htype' : otherSet.contentType with
      | generic =>
          rw [htype, htype'] at hkey
          cases hkey
      | char => exact htypes (htype.trans htype'.symm)

lemma isEqual_right (hw : Sound text w) (hset : set ∈ w.sets) (hother : otherSet ∈ w.sets)
    {memory : Bool} (hfits : EqualFits memory set otherSet) :
    ∃ equal, set.isEqual text memory otherSet = some equal ∧
      (equal = true ↔ SameElements text set otherSet) := by
  obtain ⟨t, h⟩ := hw.represents set hset
  obtain ⟨t', h'⟩ := hw.represents otherSet hother
  have hvalue : ∀ n ∈ set.nodes, n.value ≠ 0 :=
    fun n hn => hw.value_ne n (List.mem_flatMap.mpr ⟨set, hset, hn⟩)
  rw [PbhashSetT.isEqual]
  rcases hfits with ⟨htypes, hcounts⟩ | ⟨htypes, hne | ⟨hmemory, hint, hplain, hplain'⟩⟩
  · refine ⟨false, if_neg fun hboth => htypes hboth.1, ⟨fun hfalse => (by cases hfalse), fun hsame => ?_⟩⟩
    have hzero := hsame.count_eq_zero h h' htypes
    have hzero' := hsame.symm.count_eq_zero h' h (Ne.symm htypes)
    exact absurd hcounts (by omega)
  · refine ⟨false, if_neg fun hboth => hne hboth.2, ⟨fun hfalse => (by cases hfalse), fun hsame => ?_⟩⟩
    have hperm := (List.perm_ext_iff_of_nodup h.nodup_keys h'.nodup_keys).mpr
      (hsame.mem_keys_iff h h')
    have hlength := hperm.length_eq
    rw [h.length_keys, h'.length_keys] at hlength
    exact absurd hlength hne
  by_cases hcounts : set.elementsCount = otherSet.elementsCount
  · rw [if_pos ⟨htypes, hcounts⟩]
    -- the elements are the values, and the values are looked for
    have hresult : (if memory = true then set.elements.bind (otherSet.containsAll text)
        else if set.elementsCount = 0 then some true else none) =
          some (decide (∀ k ∈ set.keys text, k ∈ otherSet.keys text)) := by
      by_cases hzero : set.elementsCount = 0
      · have hnil : set.keys text = [] := by
          rw [← List.length_eq_zero_iff, h.length_keys]
          exact hzero
        rw [PbhashSetT.elements, if_pos hzero, if_pos hzero, hnil]
        cases memory with
        | false => rfl
        | true => rfl
      · have hvalues : set.nodes.map PbhashNode.element = set.nodes.map PbhashNode.value :=
          List.map_congr_left fun n hn => by
            rw [PbhashNode.element, if_neg (not_not_intro (hplain n hn))]
        have hroom : set.nodes.length ≤ set.elementsCount ∧ set.nodes.length < 2 ^ 31 := by
          rw [← h.count_eq]
          exact ⟨Nat.le_refl _, hint⟩
        have hne : ∀ v ∈ set.nodes.map PbhashNode.value, v ≠ 0 := fun v hv => by
          obtain ⟨n, hn, rfl⟩ := List.mem_map.mp hv
          exact hvalue n hn
        rw [if_pos (hmemory.resolve_right hzero), PbhashSetT.elements, if_neg hzero,
          PbhashSetT.iterate, if_pos (hw.length_lt set hset)]
        simp only [Option.bind_eq_bind, Option.bind_some, if_pos hroom, hvalues]
        rw [h'.containsAll_eq hne, ← htypes, PbhashSetT.keys.eq_def text set]
        simp only [List.forall_mem_map]
    refine ⟨_, hresult, ?_⟩
    rw [decide_eq_true_iff]
    refine ⟨fun hsub => ?_, fun hsame k hk => (hsame.mem_keys_iff h h' k).mp hk⟩
    have hperm : (set.keys text).Perm (otherSet.keys text) := by
      refine (List.subperm_of_subset h.nodup_keys hsub).perm_of_length_le ?_
      rw [h.length_keys, h'.length_keys, hcounts]
    intro k
    rw [h.element?_eq hplain, h'.element?_eq hplain']
    simp only [hperm.mem_iff]
  · refine ⟨false, if_neg fun hboth => hcounts hboth.2, ⟨fun hfalse => (by cases hfalse),
      fun hsame => ?_⟩⟩
    have hperm := (List.perm_ext_iff_of_nodup h.nodup_keys h'.nodup_keys).mpr
      (hsame.mem_keys_iff h h')
    have hlength := hperm.length_eq
    rw [h.length_keys, h'.length_keys] at hlength
    exact absurd hlength hcounts

end Equality

/-! ## All runs -/

/-- What is right about the sets in every state of a run. -/
structure BehaveAsMaps (text : Nat → Bytes) (w : HashWorld) : Prop where
  nodup_keys : ∀ set ∈ w.sets, (set.keys text).Nodup
  placed : ∀ set ∈ w.sets, ∀ (i : Nat) (bucket : List PbhashNode), set.buckets[i]? = some bucket →
    ∀ node ∈ bucket, set.elementHash text node.value = i
  reached : ∀ set ∈ w.sets, ∀ node ∈ set.nodes, set.lookup text node.value = some (some node)
  count : ∀ set ∈ w.sets, set.elementsCount = set.nodes.length
  alive : ∀ node ∈ w.nodes, node.value ∉ w.destroyed ∧ node.containing ∉ w.destroyed
  step : ∀ memory op, HashFits text w (memory, op) → ∃ answer w',
    hashStep text memory w op = some (answer, w') ∧ MapStep text w answer w' op
  isEqual : ∀ set ∈ w.sets, ∀ otherSet ∈ w.sets, ∀ memory, EqualFits memory set otherSet →
    ∃ equal, set.isEqual text memory otherSet = some equal ∧
      (equal = true ↔ SameElements text set otherSet)

lemma HashWorld.Sound.behaveAsMaps (hw : Sound text w) : BehaveAsMaps text w where
  nodup_keys set hset := by
    obtain ⟨t, ht⟩ := hw.represents set hset
    exact ht.nodup_keys
  placed set hset i bucket hbucket node hnode := by
    obtain ⟨t, ht⟩ := hw.represents set hset
    have hget : t.buckets.getD i [] = bucket.map (PbhashSetT.entry text set.contentType) := by
      rw [ht.buckets_eq, List.getD_eq_getElem?_getD, List.getElem?_map, hbucket]
      rfl
    have hplaced := t.placed i (PbhashSetT.entry text set.contentType node)
      (hget ▸ List.mem_map_of_mem hnode)
    rwa [ht.length_eq, PbhashSetT.entry, ← PbhashSetT.elementHash_eq] at hplaced
  reached set hset node hnode := by
    obtain ⟨t, ht⟩ := hw.represents set hset
    have hne := hw.value_ne node (List.mem_flatMap.mpr ⟨set, hset, hnode⟩)
    rw [ht.lookup_eq fun hnull => hne hnull.2, ht.find?_eq hnode]
  count set hset := by
    obtain ⟨t, ht⟩ := hw.represents set hset
    exact ht.count_eq
  alive := hw.alive
  step memory op hfits := by
    obtain ⟨answer, w', hstep, -, hmap⟩ := hashStep_right hw memory op hfits
    exact ⟨answer, w', hstep, hmap⟩
  isEqual _ hset _ hother _ hfits := isEqual_right hw hset hother hfits

/-- **Hash sets are maps.**  In every run whose steps all fit, each set is a map from keys to elements,
    an operation does to it what it does to a map, and no other set is changed. -/
theorem pbhash_sets_right (text : Nat → Bytes) (w : HashWorld)
    (hr : (hashMachine text).Reachable (HashFits text) w) : BehaveAsMaps text w := by
  have hsound : Sound text w := by
    refine Machine.Reachable.invariant (P := Sound text) ⟨?_, ?_, ExactCounts.nil, ?_, ?_, ?_⟩
      (fun w op w' hw hfits hstep => ?_) hr
    · exact fun _ hset => absurd hset List.not_mem_nil
    · exact fun _ hset => absurd hset List.not_mem_nil
    · exact fun _ hn => absurd hn List.not_mem_nil
    · exact fun _ hn => absurd hn List.not_mem_nil
    · exact fun _ hn => absurd hn List.not_mem_nil
    · obtain ⟨answer, w₁, hright, hw₁, -⟩ := hashStep_right hw op.1 op.2 hfits
      have heq : (hashStep text op.1 w op.2).map Prod.snd = some w' := hstep
      rw [hright] at heq
      cases heq
      exact hw₁
  exact hsound.behaveAsMaps

/-- The same text stands at two addresses. -/
def twoTexts (value : Nat) : Bytes := if value = 100 ∨ value = 101 then [97] else []

/-- Two sets, each with an object of its own for one key. -/
def twoObjects : HashWorld where
  sets := [⟨.char, [[⟨100, 200, 0⟩]], 1, true⟩, ⟨.char, [[⟨101, 201, 1⟩]], 1, true⟩]
  counters := [1, 1]
  destroyed := []

lemma reachable_twoObjects :
    (hashMachine twoTexts).Reachable (HashFits twoTexts) twoObjects := by
  have halloc : (hashMachine twoTexts).Reachable (HashFits twoTexts)
      ⟨[⟨.char, [[]], 0, true⟩], [], []⟩ :=
    .step (a := (fun _ => true, .alloc 1 .char true)) .init ⟨Nat.zero_lt_one, by decide⟩ rfl
  have halloc' : (hashMachine twoTexts).Reachable (HashFits twoTexts)
      ⟨[⟨.char, [[]], 0, true⟩, ⟨.char, [[]], 0, true⟩], [], []⟩ :=
    .step (a := (fun _ => true, .alloc 1 .char true)) halloc ⟨Nat.zero_lt_one, by decide⟩ rfl
  have hadd : (hashMachine twoTexts).Reachable (HashFits twoTexts)
      ⟨[⟨.char, [[⟨100, 200, 0⟩]], 1, true⟩, ⟨.char, [[]], 0, true⟩], [1], []⟩ :=
    .step (a := (fun _ => true, .add 0 100 200)) halloc' ⟨Nat.zero_lt_two, by decide⟩ rfl
  exact .step (a := (fun _ => true, .add 1 101 201)) hadd ⟨Nat.one_lt_two, by decide⟩ rfl

theorem pbhash_sets_right_twoObjects : BehaveAsMaps twoTexts twoObjects :=
  pbhash_sets_right twoTexts twoObjects reachable_twoObjects

/-- Subtracting a set takes the object away from the set that is subtracted, and a set is not equal to
    itself where its elements are objects. -/
theorem pbhash_sets_fail :
    (hashMachine twoTexts).Reachable (HashFits twoTexts) twoObjects ∧
      (∃ w', twoObjects.subtract twoTexts 0 1 = some (.ok, w') ∧
        w'.sets[1]?.map (fun set => set.map twoTexts (.text ([97]))) = some (some (101, 0)) ∧
        twoObjects.sets[1]?.map (fun set => set.map twoTexts (.text ([97]))) =
          some (some (101, 201))) ∧
      ∃ set, twoObjects.sets[0]? = some set ∧ set.isEqual twoTexts true set = some false ∧
        SameElements twoTexts set set :=
  ⟨reachable_twoObjects, ⟨_, rfl, rfl, rfl⟩, _, rfl, rfl, fun _ => rfl⟩

end PubNub
