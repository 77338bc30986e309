import PubNubCore.Subscribables.Changes
import Mathlib.Logic.Function.Basic

/-!
# The union and the difference of two subscription sets

`pubnub_subscription_set_union` and `pubnub_subscription_set_subtract`, with the reference counters
of the subscriptions.  Both lock the second set and then go through the elements of the *first*: a
union adds to a set what it has, and a subtraction takes out of it whatever it has.
`set_operations_exact_iff` says for which two sets the outcome is the right one all the same.

The two sets lie in one heap, where they may be the same set.
-/

namespace PubNub

/-! ## The operations -/

/-- The subscription sets which exist, and the reference counter of each subscription. -/
structure SetHeap where
  sets : List SubscriptionSet
  counts : Nat → Nat

/-- `pbref_counter_increment`. -/
def pbrefCounterIncrement (counts : Nat → Nat) (ref : Nat) : Nat → Nat :=
  Function.update counts ref (counts ref + 1)

/-- `pbref_counter_free`. -/
def pbrefCounterFree (counts : Nat → Nat) (ref : Nat) : Nat → Nat :=
  if counts ref > 0 then Function.update counts ref (counts ref - 1) else counts

/-- The counters behind `pubnub_subscription_set_add_`. -/
def countsAfterAdd (set : SubscriptionSet) (sub : Subscription) (counts : Nat → Nat) : Nat → Nat :=
  if set.subscriptions.contains sub.entity.id then counts else pbrefCounterIncrement counts sub.ref

/-- The counters behind `pubnub_subscription_set_remove_`.  What is counted up so that the hash set
    does not free the subscription is counted down by its destructor; the hash set then leaves a
    null pointer behind, so that the last `pubnub_subscription_free` frees nothing. -/
def countsAfterRemove (set : SubscriptionSet) (sub : Subscription) (counts : Nat → Nat) :
    Nat → Nat :=
  match set.subscriptions.find? sub.entity.id with
  | none => counts
  | some stored => pbrefCounterFree (pbrefCounterIncrement counts stored.ref) stored.ref

/-- The counters behind a loop over some subscriptions. -/
def countsOver (change : SubscriptionSet → Subscription → Bool → SetChange)
    (countsAfter : SubscriptionSet → Subscription → (Nat → Nat) → Nat → Nat) :
    List Subscription → SubscriptionSet → (Nat → Nat) → Nat → Nat
  | [], _, counts => counts
  | sub :: rest, set, counts =>
      countsOver change countsAfter rest (change set sub false).set (countsAfter set sub counts)

namespace SetHeap

/-- `pubnub_subscription_set_union`. -/
def union (heap : SetHeap) (a b : Nat) : Option (SetHeap × Followup) := do
  let set ← heap.sets[a]?
  let _ ← heap.sets[b]?
  let change := pubnubSubscriptionSetUnion set
  some (⟨heap.sets.set a change.set,
    countsOver pubnubSubscriptionSetAdd countsAfterAdd set.subscriptions.elements set heap.counts⟩,
    change.followup)

/-- `pubnub_subscription_set_subtract`. -/
def subtract (heap : SetHeap) (a b : Nat) : Option (SetHeap × Followup) := do
  let set ← heap.sets[a]?
  let _ ← heap.sets[b]?
  let change := pubnubSubscriptionSetSubtract set
  some (⟨heap.sets.set a change.set,
    countsOver pubnubSubscriptionSetRemove countsAfterRemove set.subscriptions.elements set
      heap.counts⟩, change.followup)

end SetHeap

/-! ## What they should do -/

/-- The ids under which a set stores its subscriptions. -/
def SubscriptionSet.ids (set : SubscriptionSet) : List Bytes := set.subscriptions.entries.map Prod.fst

/-- The engine is told of what was added to a set that is subscribed, and of everything that was
    removed from it. -/
structure Informed (set set' : SubscriptionSet) (followup : Followup) : Prop where
  added : ∀ id ∈ set'.ids, id ∉ set.ids → followup = .subscribe
  removed : ∀ sub ∈ set.subscriptions.elements, sub.entity.id ∉ set'.ids →
    followup = .unsubscribe (pubnubSubscriptionSubscribables sub (some set.options))

/-- An operation on the sets `a` and `b` has given `a` exactly the wanted ids, each once, has left
    `b` as it was, has counted only subscriptions that entered or left `a`, and has told the
    engine. -/
structure SetOperationExact (heap : SetHeap) (a b : Nat) (set : SubscriptionSet)
    (wanted : Bytes → Prop) (heap' : SetHeap) (followup : Followup) : Prop where
  other : heap'.sets[b]? = heap.sets[b]?
  contents : ∃ set', heap'.sets[a]? = some set' ∧ set'.ids.Nodup ∧
    (∀ id, id ∈ set'.ids ↔ wanted id) ∧
    (∀ ref, heap'.counts ref ≠ heap.counts ref → ∃ sub, sub.ref = ref ∧
      (sub ∈ set'.subscriptions.elements ↔ sub ∉ set.subscriptions.elements)) ∧
    (set.subscribed = true → Informed set set' followup)

/-! ## What they do -/

section Counts

variable {counts : Nat → Nat} {set : SubscriptionSet} {sub : Subscription} {ref : Nat}

lemma pbrefCounterFree_increment :
    pbrefCounterFree (pbrefCounterIncrement counts ref) ref = counts := by
  have hpos : pbrefCounterIncrement counts ref ref > 0 := by
    rw [pbrefCounterIncrement, Function.update_self]
    omega
  rw [pbrefCounterFree, if_pos hpos]
  funext k
  by_cases hk : k = ref
  · subst hk
    simp [pbrefCounterIncrement]
  · simp [pbrefCounterIncrement, hk]

/-- No removal changes a counter. -/
lemma countsAfterRemove_eq : countsAfterRemove set sub counts = counts := by
  rw [countsAfterRemove]
  cases set.subscriptions.find? sub.entity.id with
  | none => rfl
  | some stored => exact pbrefCounterFree_increment

lemma countsOver_remove (subs : List Subscription) :
    countsOver pubnubSubscriptionSetRemove countsAfterRemove subs set counts = counts := by
  induction subs generalizing set with
  | nil => rfl
  | cons sub rest ih => rw [countsOver, countsAfterRemove_eq, ih]

lemma contains_of_mem_elements (h : sub ∈ set.subscriptions.elements) :
    set.subscriptions.contains sub.entity.id = true := by
  have hfind := ChainedHash.mem_entries.mp (SubscriptionSet.mem_entries_of_mem_elements h)
  rw [ChainedHash.contains, hfind]
  rfl

/-- What a set has is not counted again. -/
lemma countsOver_add (subs : List Subscription)
    (h : ∀ sub ∈ subs, sub ∈ set.subscriptions.elements) :
    countsOver pubnubSubscriptionSetAdd countsAfterAdd subs set counts = counts := by
  induction subs with
  | nil => rfl
  | cons sub rest ih =>
      rw [List.forall_mem_cons] at h
      have hin := contains_of_mem_elements h.1
      rw [countsOver, countsAfterAdd, if_pos hin, pubnubSubscriptionSetAdd, if_pos hin]
      exact ih h.2

end Counts

section Removal

variable {set : SubscriptionSet}

/-- A removal takes the id out. -/
lemma mem_entries_setRemove {sub : Subscription} {notify : Bool} {e : Bytes × Subscription}
    (h : e ∈ (pubnubSubscriptionSetRemove set sub notify).set.subscriptions.entries) :
    e ∈ set.subscriptions.entries ∧ e.1 ≠ sub.entity.id := by
  obtain ⟨k, v⟩ := e
  rw [pubnubSubscriptionSetRemove] at h
  split at h
  · rename_i hin
    obtain ⟨stored, hstored⟩ := Option.isSome_iff_exists.mp hin
    have hlt := ChainedHash.hash_lt_of_mem_entries (ChainedHash.mem_entries.mpr hstored)
    refine ⟨ChainedHash.mem_entries_erase h, ?_⟩
    rintro rfl
    rw [ChainedHash.mem_entries, ChainedHash.find?_erase hlt, if_pos rfl] at h
    cases h
  · rename_i hout
    refine ⟨h, ?_⟩
    rintro rfl
    refine hout ?_
    rw [ChainedHash.contains, ChainedHash.mem_entries.mp h]
    rfl

lemma mem_entries_overElements_remove : ∀ (subs : List Subscription) (set : SubscriptionSet)
    {e : Bytes × Subscription},
    e ∈ (overElements pubnubSubscriptionSetRemove subs set).set.subscriptions.entries →
    e ∈ set.subscriptions.entries ∧ ∀ sub ∈ subs, e.1 ≠ sub.entity.id
  | [], _, e, h => ⟨h, by simp⟩
  | [sub], set, e, h => by
      obtain ⟨hin, hne⟩ := mem_entries_setRemove h
      exact ⟨hin, by simpa using hne⟩
  | sub :: sub' :: rest, set, e, h => by
      rw [overElements] at h
      · obtain ⟨hin, hrest⟩ := mem_entries_overElements_remove (sub' :: rest) _ h
        obtain ⟨hin, hne⟩ := mem_entries_setRemove hin
        exact ⟨hin, List.forall_mem_cons.mpr ⟨hne, hrest⟩⟩
      · exact List.cons_ne_nil _ _

/-- Nothing is left of a set from which something was subtracted. -/
lemma setSubtract_ids : (pubnubSubscriptionSetSubtract set).set.ids = [] := by
  rw [SubscriptionSet.ids, List.map_eq_nil_iff, List.eq_nil_iff_forall_not_mem]
  intro e he
  obtain ⟨hin, hne⟩ := mem_entries_overElements_remove _ _ he
  refine hne e.2 (List.mem_map_of_mem hin) ?_
  exact set.keyed e hin

/-- Different ids have different subscribables. -/
lemma id_eq_of_subscribables_eq {sub sub' : Subscription} {o o' : Option SubscriptionOptions}
    (h : pubnubSubscriptionSubscribables sub o = pubnubSubscriptionSubscribables sub' o') :
    sub.entity.id = sub'.entity.id := by
  have hfind := find?_subscriptionSubscribables sub o sub.entity.id
  rw [h, find?_subscriptionSubscribables, Subscription.subscribable?,
    Subscription.subscribable?, if_pos rfl] at hfind
  split at hfind
  · rename_i heq
    exact heq
  · split at hfind
    · simp [pubnubSubscribableAlloc] at hfind
    · cases hfind

lemma ids_eq : set.ids = set.subscriptions.elements.map fun sub => sub.entity.id := by
  rw [SubscriptionSet.ids, PbhashSet.elements, List.map_map]
  exact List.map_congr_left set.keyed

lemma setSubtract_eq_of_ids_eq_nil (h : set.ids = []) :
    (pubnubSubscriptionSetSubtract set).set = set := by
  rw [ids_eq, List.map_eq_nil_iff] at h
  rw [pubnubSubscriptionSetSubtract, h, overElements]

/-- Where the engine could be told of each element with the same words, there is only one. -/
lemma length_ids_le_one
    (h : ∀ sub ∈ set.subscriptions.elements, ∀ last ∈ set.subscriptions.elements.getLast?,
      Followup.unsubscribe (pubnubSubscriptionSubscribables sub (some set.options)) =
        .unsubscribe (pubnubSubscriptionSubscribables last (some set.options))) :
    set.ids.length ≤ 1 := by
  have hnodup := set.nodup_elements
  rw [ids_eq, List.length_map]
  rcases hcases : set.subscriptions.elements with _ | ⟨sub, _ | ⟨sub', rest⟩⟩
  · simp
  · simp
  · rw [hcases] at h hnodup
    obtain ⟨last, hlast⟩ : ∃ last, last ∈ (sub :: sub' :: rest).getLast? :=
      ⟨_, List.getLast?_eq_some_getLast (List.cons_ne_nil _ _)⟩
    have hsame : ∀ x ∈ sub :: sub' :: rest, x.entity.id = last.entity.id := fun x hx =>
      id_eq_of_subscribables_eq (Followup.unsubscribe.inj (h x hx last hlast))
    have hfirst := hsame sub (by simp)
    have hsecond := hsame sub' (by simp)
    simp [hfirst, hsecond] at hnodup

lemma getLast?_of_length_ids_le_one (h : set.ids.length ≤ 1) {sub : Subscription}
    (hsub : sub ∈ set.subscriptions.elements) : sub ∈ set.subscriptions.elements.getLast? := by
  rw [ids_eq, List.length_map] at h
  obtain ⟨x, hx⟩ : ∃ x, set.subscriptions.elements = [x] := by
    rw [← List.length_eq_one_iff]
    have hpos := List.length_pos_of_mem hsub
    omega
  rw [hx] at hsub ⊢
  simpa [eq_comm] using hsub

end Removal

/-! ## When the outcome is right -/

section Exact

variable {heap heap' : SetHeap} {a b : Nat} {set other : SubscriptionSet} {followup : Followup}

lemma union_eq (ha : heap.sets[a]? = some set) (hb : heap.sets[b]? = some other) :
    heap.union a b = some (heap, .nothing) := by
  have hset : heap.sets.set a set = heap.sets := by
    obtain ⟨hlt, rfl⟩ := List.getElem?_eq_some_iff.mp ha
    exact List.set_getElem_self hlt
  rw [SetHeap.union, ha, hb]
  simp [setUnion_eq, hset, countsOver_add]

lemma subtract_eq (ha : heap.sets[a]? = some set) (hb : heap.sets[b]? = some other) :
    heap.subtract a b = some (⟨heap.sets.set a (pubnubSubscriptionSetSubtract set).set,
      heap.counts⟩, (pubnubSubscriptionSetSubtract set).followup) := by
  rw [SetHeap.subtract, ha, hb]
  simp [countsOver_remove]

/-- A union that changes nothing is right where there is nothing to add. -/
lemma union_exact_iff (ha : heap.sets[a]? = some set) :
    SetOperationExact heap a b set (fun id => id ∈ set.ids ∨ id ∈ other.ids) heap .nothing ↔
      ∀ id ∈ other.ids, id ∈ set.ids := by
  constructor
  · rintro ⟨-, set', hset', -, hwanted, -⟩ id hid
    rw [ha] at hset'
    cases hset'
    exact (hwanted id).mpr (.inr hid)
  · intro hsub
    refine ⟨rfl, set, ha, set.subscriptions.nodup_keys, ?_, ?_, ?_⟩
    · exact fun id => ⟨.inl, fun h => h.elim (fun h => h) (hsub id)⟩
    · exact fun ref hne => absurd rfl hne
    · intro _
      refine ⟨fun id hid hout => absurd hid hout, fun sub hsub hout => absurd ?_ hout⟩
      exact List.mem_map_of_mem (f := Prod.fst) (SubscriptionSet.mem_entries_of_mem_elements hsub)

/-- A subtraction that empties a set is right where everything was to go. -/
lemma subtract_exact_iff (ha : heap.sets[a]? = some set) :
    SetOperationExact heap a b set (fun id => id ∈ set.ids ∧ id ∉ other.ids)
      ⟨heap.sets.set a (pubnubSubscriptionSetSubtract set).set, heap.counts⟩
      (pubnubSubscriptionSetSubtract set).followup ↔
    (∀ id ∈ set.ids, id ∈ other.ids) ∧ (a = b → set.ids = []) ∧
      (set.subscribed = true → set.ids.length ≤ 1) := by
  have hlt : a < heap.sets.length := (List.getElem?_eq_some_iff.mp ha).1
  have hleft : (heap.sets.set a (pubnubSubscriptionSetSubtract set).set)[a]? =
      some (pubnubSubscriptionSetSubtract set).set := List.getElem?_set_self hlt
  constructor
  · rintro ⟨hother, set', hset', -, hwanted, -, hinformed⟩
    dsimp only at hother hset'
    rw [hleft] at hset'
    cases hset'
    simp only [setSubtract_ids, List.not_mem_nil, false_iff, not_and, not_not] at hwanted
    refine ⟨hwanted, ?_, ?_⟩
    · rintro rfl
      rw [hleft, ha] at hother
      rw [← Option.some.inj hother, setSubtract_ids]
    · intro hs
      have hremoved := (hinformed hs).removed
      simp only [setSubtract_ids, List.not_mem_nil, not_false_iff, true_implies] at hremoved
      exact length_ids_le_one fun sub hsub last hlast => by
        rw [← hremoved sub hsub, setSubtract_followup hs hlast]
  · rintro ⟨hsub, hself, hone⟩
    refine ⟨?_, _, hleft, ?_, ?_, fun ref hne => absurd rfl hne, fun hs => ⟨?_, ?_⟩⟩
    · by_cases hab : a = b
      · subst hab
        rw [hleft, ha, setSubtract_eq_of_ids_eq_nil (hself rfl)]
      · exact List.getElem?_set_ne hab
    · rw [setSubtract_ids]
      exact List.nodup_nil
    · simp only [setSubtract_ids, List.not_mem_nil, false_iff, not_and, not_not]
      exact hsub
    · simp [setSubtract_ids]
    · intro sub hsub _
      exact setSubtract_followup hs (getLast?_of_length_ids_le_one (hone hs) hsub)

end Exact

/-- **A union or a difference is the right one** exactly where the first set has all that the second
    has, or, for the difference, nothing else and, if it is subscribed, no more than one
    subscription; and where nothing of a set is subtracted from itself. -/
theorem set_operations_exact_iff (heap : SetHeap) (a b : Nat) (set other : SubscriptionSet)
    (ha : heap.sets[a]? = some set) (hb : heap.sets[b]? = some other) :
    ((∃ heap' followup, heap.union a b = some (heap', followup) ∧
        SetOperationExact heap a b set (fun id => id ∈ set.ids ∨ id ∈ other.ids) heap' followup) ↔
      ∀ id ∈ other.ids, id ∈ set.ids) ∧
    ((∃ heap' followup, heap.subtract a b = some (heap', followup) ∧
        SetOperationExact heap a b set (fun id => id ∈ set.ids ∧ id ∉ other.ids) heap' followup) ↔
      (∀ id ∈ set.ids, id ∈ other.ids) ∧ (a = b → set.ids = []) ∧
        (set.subscribed = true → set.ids.length ≤ 1)) := by
  constructor
  · rw [← union_exact_iff (b := b) ha, union_eq ha hb]
    constructor
    · rintro ⟨heap', followup, h, hexact⟩
      cases h
      exact hexact
    · exact fun h => ⟨heap, .nothing, rfl, h⟩
  · rw [← subtract_exact_iff (b := b) ha, subtract_eq ha hb]
    constructor
    · rintro ⟨heap', followup, h, hexact⟩
      cases h
      exact hexact
    · exact fun h => ⟨_, _, rfl, h⟩

/-- A set that holds the channel `id`. -/
def oneChannelSet (id : Bytes) : SubscriptionSet :=
  pubnubSubscriptionSetAlloc {} subscriptionsLength [⟨0, ⟨.channel, id⟩, {}⟩]

/-- Adding a set with `room` to one with `room`. -/
theorem set_operations_exact_room :
    let heap : SetHeap := ⟨[oneChannelSet (ascii "room"), oneChannelSet (ascii "room")], fun _ => 1⟩
    ∃ heap' followup, heap.union 0 1 = some (heap', followup) ∧
      SetOperationExact heap 0 1 (oneChannelSet (ascii "room"))
        (fun id => id ∈ (oneChannelSet (ascii "room")).ids ∨
          id ∈ (oneChannelSet (ascii "room")).ids) heap' followup :=
  (set_operations_exact_iff _ 0 1 _ _ rfl rfl).1.mpr fun _ h => h

/-- Adding a set with `hall` to one with `room` does not add `hall`. -/
theorem set_operations_not_always_exact :
    ¬ ∀ (heap : SetHeap) (a b : Nat) (set other : SubscriptionSet),
      heap.sets[a]? = some set → heap.sets[b]? = some other →
      (∃ heap' followup, heap.union a b = some (heap', followup) ∧
        SetOperationExact heap a b set (fun id => id ∈ set.ids ∨ id ∈ other.ids) heap' followup) ∧
      (∃ heap' followup, heap.subtract a b = some (heap', followup) ∧
        SetOperationExact heap a b set (fun id => id ∈ set.ids ∧ id ∉ other.ids) heap' followup) := by
  intro hall
  let heap : SetHeap := ⟨[oneChannelSet (ascii "room"), oneChannelSet (ascii "hall")], fun _ => 1⟩
  obtain ⟨⟨heap', followup, hunion, hexact⟩, -⟩ := hall heap 0 1 _ _ rfl rfl
  have heq : heap.union 0 1 = some (heap, .nothing) := union_eq rfl rfl
  rw [heq] at hunion
  cases hunion
  obtain ⟨set', hset', -, hwanted, -⟩ := hexact.contents
  cases hset'
  have hin := (hwanted (ascii "hall")).mpr (.inr (by decide +kernel))
  exact absurd hin (by decide +kernel)

end PubNub
