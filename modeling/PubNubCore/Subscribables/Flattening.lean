import PubNubCore.Subscribables.Registry
import Mathlib.Algebra.Order.BigOperators.Group.List
import Mathlib.Algebra.Order.Group.Nat
import Mathlib.Data.List.Perm.Subperm

/-!
# Flattening the active items into lists

What the two lists of a subscribe request are made of.  `collectSubscribables` merges the
subscribables of all active items into one hash set keyed by the text of the id, first come
first served; `find?_collectSubscribables` says which subscribable each text ends up with and
`mem_listedIds` turns this into the members of the two lists.

The text of a list does not determine its ids (an id may contain a comma, and an empty id leaves
no trace), so the last section shows how much of a list can be read off its text: of two lists
without duplicates, one inside the other, equal texts mean equal non-empty ids.
-/

namespace PubNub

/-! ## The subscribables of one item -/

lemma pbhashSetAlloc_hash_lt {V : Type} (s : PbhashSet V) (hs : 0 < s.buckets.length)
    (k : Bytes) : pbhashSetElementHash s.buckets.length k < s.buckets.length :=
  pbhashSetElementHash_lt hs k

/-- The subscribable which an item stores under a text. -/
def Subscription.subscribable? (sub : Subscription) (k : Bytes) : Option Subscribable :=
  if k = sub.entity.id then some (pubnubSubscribableAlloc sub.entity.location sub.entity.id false)
  else if sub.options.receivePresenceEvents ∧ k = sub.entity.id ++ presenceSuffix then
    some (pubnubSubscribableAlloc sub.entity.location sub.entity.id true)
  else none

/-- The options of the owner make no difference. -/
lemma subscriptionSubscribables_options (sub : Subscription) (o : Option SubscriptionOptions) :
    pubnubSubscriptionSubscribables sub o = pubnubSubscriptionSubscribables sub none := by
  cases o <;> rfl

/-- What the hash set of one subscription finds. -/
lemma find?_subscriptionSubscribables (sub : Subscription) (o : Option SubscriptionOptions)
    (k : Bytes) :
    (pubnubSubscriptionSubscribables sub o).find? k = sub.subscribable? k := by
  rw [subscriptionSubscribables_options]
  simp only [pubnubSubscriptionSubscribables, Subscription.subscribable?]
  cases hp : sub.options.receivePresenceEvents with
  | false =>
      simp only [Bool.false_eq_true, if_false, false_and]
      rw [ChainedHash.find?_insertNew (pbhashSetElementHash_lt (by decide) _)]
      simp [pubnubSubscribableAlloc]
  | true =>
      simp only [if_true, true_and]
      rw [ChainedHash.find?_insertNew, ChainedHash.find?_insertNew]
      · by_cases h1 : k = sub.entity.id
        · simp [pubnubSubscribableAlloc, h1]
        · simp [pubnubSubscribableAlloc, h1]
      · exact pbhashSetElementHash_lt (by decide) _
      · exact pbhashSetAlloc_hash_lt _ (by rw [ChainedHash.length_insertNew]; decide) _

/-- What a subscription may store under a text carries this text and its own location. -/
lemma Subscription.subscribable?_spec {sub : Subscription} {k : Bytes} {v : Subscribable}
    (h : sub.subscribable? k = some v) : v.id = k ∧ v.location = sub.entity.location := by
  unfold Subscription.subscribable? at h
  split at h
  · rename_i hk
    obtain rfl := Option.some.inj h
    exact ⟨hk.symm, rfl⟩
  · split at h
    · rename_i hk
      obtain rfl := Option.some.inj h
      exact ⟨hk.2.symm, rfl⟩
    · exact absurd h (by simp)

lemma Subscription.subscribable?_isSome {sub : Subscription} {k : Bytes} :
    (sub.subscribable? k).isSome ↔ k = sub.entity.id ∨
      (sub.options.receivePresenceEvents ∧ k = sub.entity.id ++ presenceSuffix) := by
  unfold Subscription.subscribable?
  by_cases h1 : k = sub.entity.id
  · simp [h1]
  · by_cases h2 : sub.options.receivePresenceEvents ∧ k = sub.entity.id ++ presenceSuffix
    · simp only [h1, if_false, if_pos h2, Option.isSome_some, true_iff]
      exact .inr h2
    · simp [h1, h2]

/-! ## Merging -/

/-- Merging finds what the first item that has something finds. -/
lemma find?_foldl_union {ι : Type} (f : ι → PbhashSet Subscribable) (xs : List ι)
    (s : PbhashSet Subscribable) (hs : 0 < s.buckets.length) (k : Bytes) :
    (xs.foldl (fun acc x => acc.union (f x)) s).find? k =
      (s.find? k).or (xs.findSome? fun x => (f x).find? k) := by
  induction xs generalizing s with
  | nil => simp
  | cons x xs ih =>
      have hlt := ChainedHash.find?_union (t := f x) (k := k) (pbhashSetAlloc_hash_lt s hs)
      rw [List.foldl_cons, ih _ (by rwa [ChainedHash.length_union]), hlt, Option.or_assoc,
        List.findSome?_cons]
      cases (f x).find? k <;> rfl

lemma find?_setSubscribables (set : SubscriptionSet) (k : Bytes) :
    (pubnubSubscriptionSetSubscribables set).find? k =
      set.subscriptions.elements.findSome? fun sub => sub.subscribable? k := by
  rw [pubnubSubscriptionSetSubscribables, find?_foldl_union]
  · simp only [ChainedHash.find?_alloc, Option.none_or, find?_subscriptionSubscribables]
  · simp only [ChainedHash.alloc, List.length_replicate]
    split <;> split <;> omega

/-- The subscription sets which are active. -/
def Registry.activeSets (r : Registry) : List SubscriptionSet :=
  r.subscriptionSets.filterMap fun ref => r.sets[ref]?

/-- **What a text stands for** in the merged hash set: the subscriptions come first, then the
    sets, each in the order in which they were added. -/
lemma find?_collectSubscribables (r : Registry) (k : Bytes) :
    r.collectSubscribables.find? k =
      (r.subscriptions.findSome? fun sub => sub.subscribable? k).or
        (r.activeSets.findSome? fun set =>
          set.subscriptions.elements.findSome? fun sub => sub.subscribable? k) := by
  have hlen : 0 < (pbhashSetAlloc Subscribable r.subscribables.buckets.length).buckets.length := by
    rw [pbhashSetAlloc, ChainedHash.alloc, List.length_replicate]
    exact r.buckets_pos
  rw [Registry.collectSubscribables, find?_foldl_union, find?_foldl_union _ _ _ hlen]
  · simp only [ChainedHash.find?_alloc, Option.none_or, find?_subscriptionSubscribables,
      find?_setSubscribables, Registry.activeSets]
  · rwa [Registry.length_foldl_union]

/-- Everything found in the merged hash set carries its text as id. -/
lemma collectSubscribables_id {r : Registry} {k : Bytes} {v : Subscribable}
    (h : r.collectSubscribables.find? k = some v) : v.id = k := by
  rw [find?_collectSubscribables, Option.or_eq_some_iff] at h
  rcases h with h | ⟨_, h⟩
  · obtain ⟨sub, _, hs⟩ := List.exists_of_findSome?_eq_some h
    exact (Subscription.subscribable?_spec hs).1
  · obtain ⟨set, _, hs⟩ := List.exists_of_findSome?_eq_some h
    obtain ⟨sub, _, hs⟩ := List.exists_of_findSome?_eq_some hs
    exact (Subscription.subscribable?_spec hs).1

/-! ## The ids which the lists are printed from -/

/-- The ids at one location, in the order of the hash set. -/
def listedIds (subscribables : PbhashSet Subscribable) (location : SubscribableLocation) :
    List Bytes :=
  (subscribables.elements.filter fun sub => sub.location == location).map Subscribable.id

/-- The ids of a hash set whose entries carry their key as id. -/
lemma mem_listedIds {s : PbhashSet Subscribable} {location : SubscribableLocation}
    (hid : ∀ k v, s.find? k = some v → v.id = k) {k : Bytes} :
    k ∈ listedIds s location ↔ ∃ v, s.find? k = some v ∧ v.location = location := by
  simp only [listedIds, PbhashSet.elements, List.mem_map, List.mem_filter, Prod.exists]
  constructor
  · rintro ⟨v, ⟨⟨k', w, hw, rfl⟩, hloc⟩, rfl⟩
    have hf := ChainedHash.mem_entries.mp hw
    obtain rfl := hid k' w hf
    exact ⟨w, hf, by simpa using hloc⟩
  · rintro ⟨v, hf, hloc⟩
    exact ⟨v, ⟨⟨k, v, ChainedHash.mem_entries.mpr hf, rfl⟩, by simpa using hloc⟩, hid k v hf⟩

/-- No id is listed twice. -/
lemma nodup_listedIds {s : PbhashSet Subscribable} (location : SubscribableLocation)
    (hid : ∀ k v, s.find? k = some v → v.id = k) : (listedIds s location).Nodup := by
  have hmap : s.elements.map Subscribable.id = s.entries.map Prod.fst := by
    rw [PbhashSet.elements, List.map_map]
    exact List.map_congr_left fun e he => hid e.1 e.2 (ChainedHash.mem_entries.mp he)
  have hsub : (listedIds s location).Sublist (s.elements.map Subscribable.id) :=
    List.filter_sublist.map _
  rw [hmap] at hsub
  exact s.nodup_keys.sublist hsub

/-- A list whose ids have no length is printed as nothing. -/
lemma joinIds_of_sum_eq_zero {ids : List Bytes} (h : (ids.map List.length).sum = 0) :
    joinIds ids = [] := by
  have key : ∀ l : List Bytes, (l.map List.length).sum = 0 → l.foldl appendId [] = [] := by
    intro l
    induction l with
    | nil => exact fun _ => rfl
    | cons x l ih =>
        intro hs
        simp only [List.map_cons, List.sum_cons, Nat.add_eq_zero_iff, List.length_eq_zero_iff] at hs
        rw [List.foldl_cons, hs.1]
        exact ih hs.2
  exact key ids h

@[simp] lemma nullIfEmpty_getD (text : Bytes) : (nullIfEmpty text).getD [] = text := by
  unfold nullIfEmpty
  split
  · rename_i h
    exact h.symm
  · rfl

/-- **The texts of the event's lists** are printed from the listed ids. -/
theorem eventLists_eq (s : PbhashSet Subscribable) :
    (eventLists s).channels.getD [] = joinIds (listedIds s .path) ∧
      (eventLists s).channelGroups.getD [] = joinIds (listedIds s .query) := by
  have hch : ((s.elements.filter fun sub => true || !sub.isPresence).filter
      fun sub => !sub.isCg).map Subscribable.id = listedIds s .path := by
    simp only [Bool.true_or, List.filter_true, listedIds]
    congr 2
    funext sub
    simp only [Subscribable.isCg]
    cases sub.location <;> rfl
  have hcg : ((s.elements.filter fun sub => true || !sub.isPresence).filter
      fun sub => sub.isCg).map Subscribable.id = listedIds s .query := by
    simp only [Bool.true_or, List.filter_true, listedIds, Subscribable.isCg]
  simp only [eventLists, pbccSubscribeEeSubscribables, hch, hcg]
  by_cases hz : ((listedIds s .path).map List.length).sum = 0 ∧
      ((listedIds s .query).map List.length).sum = 0
  · rw [if_pos hz, if_pos rfl]
    exact ⟨(joinIds_of_sum_eq_zero hz.1).symm, (joinIds_of_sum_eq_zero hz.2).symm⟩
  · rw [if_neg hz, if_neg (by decide)]
    exact ⟨nullIfEmpty_getD _, nullIfEmpty_getD _⟩

/-! ## What the text of a list tells about its ids -/

/-- The printed length of an id with its comma; an empty id counts for nothing. -/
def printedLength (id : Bytes) : Nat := if id = [] then 0 else id.length + 1

/-- The sum of the printed lengths. -/
def printedLengths (ids : List Bytes) : Nat := (ids.map printedLength).sum

private lemma length_foldl_appendId : ∀ (ids : List Bytes) (acc : Bytes), acc ≠ [] →
    (ids.foldl appendId acc).length = acc.length + printedLengths ids + ids.count []
  | [], acc, _ => by simp [printedLengths]
  | id :: ids, acc, hacc => by
      have hpos : acc.length > 0 := List.length_pos_iff.mpr hacc
      have hne : appendId acc id ≠ [] := by simp [appendId, hacc]
      have hlen : (appendId acc id).length = acc.length + (id.length + 1) := by
        simp only [appendId, if_pos hpos, List.length_append]
        have : (ascii ",").length = 1 := by decide
        omega
      rw [List.foldl_cons, length_foldl_appendId ids _ hne, hlen]
      by_cases hid : id = []
      · subst hid
        simp only [printedLengths, List.map_cons, List.sum_cons, printedLength, if_true,
          List.count_cons_self, List.length_nil]
        omega
      · have hcount : (id :: ids).count [] = ids.count [] := by
          rw [List.count_cons, beq_eq_false_iff_ne.mpr hid]
          rfl
        simp only [printedLengths, List.map_cons, List.sum_cons, printedLength, if_neg hid, hcount]
        omega

/-- How long the text of a list is: one comma less than there are ids, empty ids aside. -/
lemma length_joinIds (ids : List Bytes) : printedLengths ids ≤ (joinIds ids).length + 1 ∧
    ((joinIds ids).length = 0 ∨
      (joinIds ids).length + 1 ≤ printedLengths ids + ids.count []) := by
  induction ids with
  | nil => simp [printedLengths, joinIds]
  | cons id ids ih =>
      by_cases hid : id = []
      · subst hid
        have heq : joinIds ([] :: ids) = joinIds ids := rfl
        simp only [printedLengths, List.map_cons, List.sum_cons, printedLength, if_true, heq,
          List.count_cons_self] at ih ⊢
        omega
      · have heq : joinIds (id :: ids) = ids.foldl appendId id := rfl
        have hcount : (id :: ids).count [] = ids.count [] := by
          rw [List.count_cons, beq_eq_false_iff_ne.mpr hid]
          rfl
        rw [heq, length_foldl_appendId ids id hid, hcount]
        simp only [printedLengths, List.map_cons, List.sum_cons, printedLength, if_neg hid]
        omega

/-- Every further non-empty id makes a list longer by at least two. -/
lemma printedLengths_of_subset {ids ids' : List Bytes} {k : Bytes} (hnd : ids.Nodup)
    (hsub : ids ⊆ ids') (hk : k ∈ ids') (hk' : k ∉ ids) (hne : k ≠ []) :
    printedLengths ids + 2 ≤ printedLengths ids' := by
  have hperm : (k :: ids).Subperm ids' :=
    List.subperm_of_subset (List.nodup_cons.mpr ⟨hk', hnd⟩) (List.cons_subset.mpr ⟨hk, hsub⟩)
  obtain ⟨l, hl, hsl⟩ := hperm
  have hle : printedLengths l ≤ printedLengths ids' :=
    List.Sublist.sum_le_sum (hsl.map printedLength) fun _ _ => Nat.zero_le _
  have heq : printedLengths l = printedLengths (k :: ids) := (hl.map printedLength).sum_eq
  have hlen : 0 < k.length := List.length_pos_iff.mpr hne
  have hcons : printedLengths (k :: ids) = k.length + 1 + printedLengths ids := by
    rw [printedLengths, List.map_cons, List.sum_cons, printedLength, if_neg hne, printedLengths]
  omega

/-- **Equal texts, equal ids.**  If one duplicate-free list is part of another one and both are
    printed alike, then they have the same non-empty ids. -/
theorem mem_of_joinIds_eq {ids ids' : List Bytes} (hnd : ids.Nodup) (hsub : ids ⊆ ids')
    (htext : joinIds ids = joinIds ids') {k : Bytes} (hk : k ∈ ids') (hne : k ≠ []) :
    k ∈ ids := by
  by_contra hk'
  have hlen := printedLengths_of_subset hnd hsub hk hk' hne
  have hup := (length_joinIds ids).2
  have hlow := (length_joinIds ids').1
  have hcount : ids.count [] ≤ 1 := List.nodup_iff_count_le_one.mp hnd []
  rw [htext] at hup
  omega

end PubNub
