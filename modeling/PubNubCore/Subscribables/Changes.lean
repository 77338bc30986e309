import PubNubCore.Lib.Machine
import PubNubCore.Subscribables.Flattening

/-!
# Which lists the next subscribe request is built with

The public operations on subscriptions and subscription sets, as a machine.  Its state is the
registry together with the lists of the last `SUBSCRIPTION_CHANGED` or `SUBSCRIPTION_RESTORED`
event, which are the ones in the context of the engine and hence in its next subscribe request.

The lists *should* hold what the active items want (`Registry.Wanted`).  Two slips stand in the
way.  The hash set through which the items are flattened is keyed by the text of the id alone,
so a channel and a channel group of one name are taken for duplicates; and
`pubnub_subscription_subscribables_` overwrites the options it is handed by the set with those
of the subscription itself, so a set cannot ask for presence.  `listsExact_iff` shows that
nothing else can go wrong.
-/

namespace PubNub

/-! ## The operations -/

/-- The calls of `pubnub_subscribe_event_engine.c` which change what is subscribed.  The second
    set of a union or of a subtraction plays no part in the code. -/
inductive RegistryCall
  | subscribe (sub : Subscription)
  | unsubscribe (sub : Subscription)
  | subscribeSet (ref : Nat)
  | unsubscribeSet (ref : Nat)
  | allocSet (options : SubscriptionOptions) (length : Nat) (subs : List Subscription)
  | setAdd (ref : Nat) (sub : Subscription)
  | setRemove (ref : Nat) (sub : Subscription)
  | setUnion (ref : Nat)
  | setSubtract (ref : Nat)
  | unsubscribeAll

/-- The registry and the lists of the engine's context; `none` while the engine has no
    context. -/
structure SubscribedState where
  registry : Registry
  request : Option EventLists

namespace SubscribedState

/-- `pbcc_subscribe_ee_subscribe_` and `pbcc_subscribe_ee_unsubscribe_` both end with an event
    that carries the lists of the updated subscribables. -/
def settle (st : SubscribedState) : Registry × Followup → SubscribedState
  | (r, .nothing) => { st with registry := r }
  | (r, _) => ⟨r.updateSubscribables, some (eventLists r.updateSubscribables.subscribables)⟩

/-- One call. -/
def call (st : SubscribedState) : RegistryCall → Option SubscribedState
  | .subscribe sub => some (st.settle (st.registry.subscribeWithSubscription sub))
  | .unsubscribe sub => some (st.settle (st.registry.unsubscribeWithSubscription sub))
  | .subscribeSet ref =>
      if ref < st.registry.sets.length then
        let st' := st.settle (st.registry.subscribeWithSubscriptionSet ref)
        some { st' with registry := st'.registry.setSubscribed ref true }
      else none
  | .unsubscribeSet ref =>
      (st.registry.sets[ref]?).map fun set =>
        if ref ∈ st.registry.subscriptionSets then
          let st' := st.settle (st.registry.unsubscribeWithSubscriptionSet ref set)
          { st' with registry := st'.registry.setSubscribed ref false }
        else st
  | .allocSet options length subs =>
      some { st with registry := st.registry.allocSet options length subs }
  | .setAdd ref sub =>
      some (st.settle (st.registry.onSet ref fun set => pubnubSubscriptionSetAdd set sub true))
  | .setRemove ref sub =>
      some (st.settle (st.registry.onSet ref fun set => pubnubSubscriptionSetRemove set sub true))
  | .setUnion ref => some (st.settle (st.registry.onSet ref pubnubSubscriptionSetUnion))
  | .setSubtract ref => some (st.settle (st.registry.onSet ref pubnubSubscriptionSetSubtract))
  | .unsubscribeAll => some ⟨st.registry.removeAll, none⟩

end SubscribedState

/-- The machine of the calls, from a fresh engine. -/
def registryMachine : Machine SubscribedState RegistryCall where
  init := ⟨Registry.empty, none⟩
  step := SubscribedState.call

/-! ## What the lists should hold -/

namespace Registry

/-- A subscription is active on its own, or through an active set with these options. -/
def IsActive (r : Registry) (sub : Subscription) : Option SubscriptionOptions → Prop
  | none => sub ∈ r.subscriptions
  | some options => ∃ set ∈ r.activeSets, set.options = options ∧ sub ∈ set.subscriptions.elements

/-- The options of the subscription or of the owning set ask for presence. -/
def AsksPresence (sub : Subscription) (owner : Option SubscriptionOptions) : Prop :=
  sub.options.receivePresenceEvents ∨ ∃ o ∈ owner, o.receivePresenceEvents

/-- The texts which one of the two lists should hold. -/
def Wanted (r : Registry) (location : SubscribableLocation) (k : Bytes) : Prop :=
  ∃ sub owner, r.IsActive sub owner ∧ sub.entity.location = location ∧
    (k = sub.entity.id ∨ (AsksPresence sub owner ∧ k = sub.entity.id ++ presenceSuffix))

/-- The text of a list is printed from exactly the wanted ids, each of them once. -/
def ListExact (r : Registry) (location : SubscribableLocation) (text : Bytes) : Prop :=
  ∃ ids : List Bytes, ids.Nodup ∧ (∀ k, k ∈ ids ↔ r.Wanted location k) ∧ text = joinIds ids

/-- Both lists of an event are exact. -/
def ListsExact (r : Registry) (lists : EventLists) : Prop :=
  r.ListExact .path (lists.channels.getD []) ∧ r.ListExact .query (lists.channelGroups.getD [])

/-- No text is wanted both among the channels and among the channel groups. -/
def NoNameClash (r : Registry) : Prop :=
  ∀ k, k ≠ [] → ¬(r.Wanted .path k ∧ r.Wanted .query k)

/-- Wherever presence is asked for, some active subscription to an entity of the same kind
    brings the presence channel along by itself: through its own options or as its id. -/
def PresenceCovered (r : Registry) : Prop :=
  ∀ sub owner, r.IsActive sub owner → AsksPresence sub owner →
    ∃ sub' owner', r.IsActive sub' owner' ∧ sub'.entity.location = sub.entity.location ∧
      (sub.entity.id ++ presenceSuffix = sub'.entity.id ∨
        (sub'.options.receivePresenceEvents ∧
          sub.entity.id ++ presenceSuffix = sub'.entity.id ++ presenceSuffix))

/-! ## What they do hold -/

variable {r : Registry} {k : Bytes} {location : SubscribableLocation}

/-- The texts which some active subscription brings along by itself. -/
def Brought (r : Registry) (location : SubscribableLocation) (k : Bytes) : Prop :=
  ∃ sub owner, r.IsActive sub owner ∧ sub.entity.location = location ∧
    (sub.subscribable? k).isSome

lemma Brought.wanted (h : r.Brought location k) : r.Wanted location k := by
  obtain ⟨sub, owner, hact, hloc, hk⟩ := h
  refine ⟨sub, owner, hact, hloc, ?_⟩
  rcases Subscription.subscribable?_isSome.mp hk with hk | ⟨hp, hk⟩
  · exact .inl hk
  · exact .inr ⟨.inl hp, hk⟩

/-- Whatever the merged hash set finds was brought along. -/
lemma brought_of_find? {v : Subscribable} (h : r.collectSubscribables.find? k = some v) :
    r.Brought v.location k := by
  rw [find?_collectSubscribables, Option.or_eq_some_iff] at h
  rcases h with h | ⟨_, h⟩
  · obtain ⟨sub, hsub, hs⟩ := List.exists_of_findSome?_eq_some h
    exact ⟨sub, none, hsub, (Subscription.subscribable?_spec hs).2.symm, by simp [hs]⟩
  · obtain ⟨set, hset, hs⟩ := List.exists_of_findSome?_eq_some h
    obtain ⟨sub, hsub, hs⟩ := List.exists_of_findSome?_eq_some hs
    exact ⟨sub, some set.options, ⟨set, hset, rfl, hsub⟩,
      (Subscription.subscribable?_spec hs).2.symm, by simp [hs]⟩

/-- Whatever is brought along is found, though perhaps at the other location. -/
lemma find?_isSome_of_brought (h : r.Brought location k) :
    (r.collectSubscribables.find? k).isSome := by
  obtain ⟨sub, owner, hact, -, hk⟩ := h
  rw [find?_collectSubscribables, Option.isSome_or, Bool.or_eq_true]
  cases owner with
  | none =>
      left
      rw [List.findSome?_isSome_iff]
      exact ⟨sub, hact, hk⟩
  | some o =>
      right
      obtain ⟨set, hset, -, hsub⟩ := hact
      rw [List.findSome?_isSome_iff]
      refine ⟨set, hset, ?_⟩
      rw [List.findSome?_isSome_iff]
      exact ⟨sub, hsub, hk⟩

lemma mem_listedIds_collect : k ∈ listedIds r.collectSubscribables location ↔
    ∃ v, r.collectSubscribables.find? k = some v ∧ v.location = location :=
  mem_listedIds fun _ _ => collectSubscribables_id

/-- The listed ids are wanted where they are listed. -/
lemma wanted_of_mem_listedIds (h : k ∈ listedIds r.collectSubscribables location) :
    r.Wanted location k := by
  obtain ⟨v, hv, rfl⟩ := mem_listedIds_collect.mp h
  exact (brought_of_find? hv).wanted

/-- No text is listed at both locations. -/
lemma not_mem_both (hch : k ∈ listedIds r.collectSubscribables .path)
    (hcg : k ∈ listedIds r.collectSubscribables .query) : False := by
  obtain ⟨v, hv, hpath⟩ := mem_listedIds_collect.mp hch
  obtain ⟨w, hw, hquery⟩ := mem_listedIds_collect.mp hcg
  rw [hv] at hw
  obtain rfl := Option.some.inj hw
  rw [hpath] at hquery
  exact absurd hquery (by decide)

/-- The other location. -/
private lemma location_cases {l : SubscribableLocation} (h : l ≠ location) :
    (location = .path ∧ l = .query) ∨ (location = .query ∧ l = .path) := by
  cases l <;> cases location <;> simp at h ⊢

/-- Under the two conditions, every wanted text is listed where it is wanted. -/
lemma mem_listedIds_of_wanted (hclash : r.NoNameClash) (hpres : r.PresenceCovered)
    (hne : k ≠ []) (hw : r.Wanted location k) :
    k ∈ listedIds r.collectSubscribables location := by
  have hb : r.Brought location k := by
    obtain ⟨sub, owner, hact, hloc, rfl | ⟨hask, rfl⟩⟩ := hw
    · exact ⟨sub, owner, hact, hloc, Subscription.subscribable?_isSome.mpr (.inl rfl)⟩
    · obtain ⟨sub', owner', hact', hloc', hk⟩ := hpres sub owner hact hask
      exact ⟨sub', owner', hact', hloc'.trans hloc, Subscription.subscribable?_isSome.mpr hk⟩
  obtain ⟨v, hv⟩ := Option.isSome_iff_exists.mp (find?_isSome_of_brought hb)
  refine mem_listedIds_collect.mpr ⟨v, hv, ?_⟩
  by_contra hother
  have hw' := (brought_of_find? hv).wanted
  rcases location_cases hother with ⟨rfl, hl⟩ | ⟨rfl, hl⟩
  · exact hclash k hne ⟨hw, hl ▸ hw'⟩
  · exact hclash k hne ⟨hl ▸ hw', hw⟩

/-- A list that holds every wanted non-empty id is exact: an empty id leaves no trace. -/
lemma listExact_of_mem (h : ∀ k, k ≠ [] → r.Wanted location k →
      k ∈ listedIds r.collectSubscribables location) :
    r.ListExact location (joinIds (listedIds r.collectSubscribables location)) := by
  have hnd := nodup_listedIds location (s := r.collectSubscribables)
    fun _ _ => collectSubscribables_id
  by_cases hempty : r.Wanted location [] ∧ [] ∉ listedIds r.collectSubscribables location
  · refine ⟨[] :: listedIds r.collectSubscribables location,
      List.nodup_cons.mpr ⟨hempty.2, hnd⟩, fun k => ?_, rfl⟩
    rw [List.mem_cons]
    constructor
    · rintro (rfl | hk)
      · exact hempty.1
      · exact wanted_of_mem_listedIds hk
    · intro hw
      by_cases hk : k = []
      · exact .inl hk
      · exact .inr (h k hk hw)
  · refine ⟨_, hnd, fun k => ⟨wanted_of_mem_listedIds, fun hw => ?_⟩, rfl⟩
    by_cases hk : k = []
    · subst hk
      by_contra hnot
      exact hempty ⟨hw, hnot⟩
    · exact h k hk hw

/-- Conversely, an exact list holds every wanted non-empty id. -/
lemma mem_of_listExact
    (h : r.ListExact location (joinIds (listedIds r.collectSubscribables location)))
    (hne : k ≠ []) (hw : r.Wanted location k) :
    k ∈ listedIds r.collectSubscribables location := by
  obtain ⟨ids, -, hmem, htext⟩ := h
  have hsub : listedIds r.collectSubscribables location ⊆ ids := fun x hx =>
    (hmem x).mpr (wanted_of_mem_listedIds hx)
  exact mem_of_joinIds_eq (nodup_listedIds location fun _ _ => collectSubscribables_id) hsub
    htext ((hmem k).mpr hw) hne

/-- **Exactly when the lists are right**: no name clash and no presence that only a set asks
    for. -/
theorem listsExact_iff :
    r.ListsExact (eventLists r.collectSubscribables) ↔ r.NoNameClash ∧ r.PresenceCovered := by
  rw [ListsExact, (eventLists_eq _).1, (eventLists_eq _).2]
  constructor
  · rintro ⟨hch, hcg⟩
    have hmem : ∀ location k, k ≠ [] → r.Wanted location k →
        k ∈ listedIds r.collectSubscribables location := fun location k hne hw => by
      cases location with
      | path => exact mem_of_listExact hch hne hw
      | query => exact mem_of_listExact hcg hne hw
    refine ⟨fun k hne hk => not_mem_both (hmem _ k hne hk.1) (hmem _ k hne hk.2), ?_⟩
    intro sub owner hact hask
    have hne : sub.entity.id ++ presenceSuffix ≠ [] := by simp [presenceSuffix, ascii]
    have hk := hmem _ _ hne ⟨sub, owner, hact, rfl, .inr ⟨hask, rfl⟩⟩
    obtain ⟨v, hv, hloc⟩ := mem_listedIds_collect.mp hk
    obtain ⟨sub', owner', hact', hloc', hs⟩ := brought_of_find? hv
    exact ⟨sub', owner', hact', hloc'.trans hloc, Subscription.subscribable?_isSome.mp hs⟩
  · rintro ⟨hclash, hpres⟩
    exact ⟨listExact_of_mem fun k hne hw => mem_listedIds_of_wanted hclash hpres hne hw,
      listExact_of_mem fun k hne hw => mem_listedIds_of_wanted hclash hpres hne hw⟩

end Registry

/-! ## Every change of an active item reaches the engine -/

/-- A change of a set keeps its flag, and unless it notifies the engine, it leaves a subscribed
    set as it is. -/
def SetChange.Sound (set : SubscriptionSet) (c : SetChange) : Prop :=
  c.set.subscribed = set.subscribed ∧
    (set.subscribed = true → c.followup = .nothing → c.set = set)

lemma setAdd_sound (set : SubscriptionSet) (sub : Subscription) :
    (pubnubSubscriptionSetAdd set sub true).Sound set := by
  unfold pubnubSubscriptionSetAdd
  split
  · exact ⟨rfl, fun _ _ => rfl⟩
  · refine ⟨rfl, fun hs hf => ?_⟩
    simp [hs] at hf

lemma setRemove_subscribed (set : SubscriptionSet) (sub : Subscription) (notify : Bool) :
    (pubnubSubscriptionSetRemove set sub notify).set.subscribed = set.subscribed := by
  unfold pubnubSubscriptionSetRemove
  split <;> rfl

lemma setRemove_sound (set : SubscriptionSet) (sub : Subscription) :
    (pubnubSubscriptionSetRemove set sub true).Sound set := by
  refine ⟨setRemove_subscribed _ _ _, fun hs hf => ?_⟩
  unfold pubnubSubscriptionSetRemove at hf ⊢
  split at hf
  · simp [hs] at hf
  · rename_i h
    rw [if_neg h]

lemma SubscriptionSet.mem_entries_of_mem_elements {set : SubscriptionSet} {sub : Subscription}
    (h : sub ∈ set.subscriptions.elements) : (sub.entity.id, sub) ∈ set.subscriptions.entries := by
  obtain ⟨e, he, rfl⟩ := List.mem_map.mp h
  have hk := set.keyed e he
  rwa [← hk]

/-- Adding its own elements to a set changes nothing. -/
lemma setUnion_eq (set : SubscriptionSet) : pubnubSubscriptionSetUnion set = ⟨set, .nothing⟩ := by
  have hadd : ∀ sub ∈ set.subscriptions.elements, ∀ notify,
      pubnubSubscriptionSetAdd set sub notify = ⟨set, .nothing⟩ := fun sub hsub notify => by
    have hf := ChainedHash.mem_entries.mp (SubscriptionSet.mem_entries_of_mem_elements hsub)
    rw [pubnubSubscriptionSetAdd, if_pos (by rw [ChainedHash.contains, hf]; rfl)]
  have key : ∀ subs : List Subscription, (∀ sub ∈ subs, sub ∈ set.subscriptions.elements) →
      overElements pubnubSubscriptionSetAdd subs set = ⟨set, .nothing⟩ := by
    intro subs
    induction subs with
    | nil => exact fun _ => rfl
    | cons sub rest ih =>
        intro h
        cases rest with
        | nil => exact hadd sub (h sub List.mem_cons_self) true
        | cons sub' rest =>
            rw [overElements, hadd sub (h sub List.mem_cons_self) false]
            · exact ih fun x hx => h x (List.mem_cons_of_mem _ hx)
            · exact List.cons_ne_nil _ _
  exact key _ fun _ h => h

private lemma overElements_subscribed : ∀ (subs : List Subscription) (set : SubscriptionSet),
    (overElements pubnubSubscriptionSetRemove subs set).set.subscribed = set.subscribed
  | [], _ => rfl
  | [sub], set => setRemove_subscribed set sub true
  | sub :: sub' :: rest, set => by
      rw [overElements, overElements_subscribed (sub' :: rest), setRemove_subscribed]
      exact List.cons_ne_nil _ _

lemma setRemove_eq {set : SubscriptionSet} {sub : Subscription}
    (h : (sub.entity.id, sub) ∈ set.subscriptions.entries) (notify : Bool) :
    (pubnubSubscriptionSetRemove set sub notify).set.subscriptions =
      set.subscriptions.erase sub.entity.id ∧
    (pubnubSubscriptionSetRemove set sub notify).set.options = set.options := by
  have hin : set.subscriptions.contains sub.entity.id = true := by
    rw [ChainedHash.contains, ChainedHash.mem_entries.mp h]
    rfl
  rw [pubnubSubscriptionSetRemove, if_pos hin]
  exact ⟨rfl, rfl⟩

/-- The last removal of a subtraction finds its element, and is the one that notifies the
    engine. -/
lemma overElements_remove_followup : ∀ (subs : List Subscription) (set : SubscriptionSet),
    set.subscribed = true → (subs.map fun sub => sub.entity.id).Nodup →
    (∀ sub ∈ subs, (sub.entity.id, sub) ∈ set.subscriptions.entries) → ∀ last ∈ subs.getLast?,
    (overElements pubnubSubscriptionSetRemove subs set).followup =
      .unsubscribe (pubnubSubscriptionSubscribables last (some set.options))
  | [], _, _, _, _, _, h => by simp at h
  | [sub], set, hs, _, hmem, last, h => by
      obtain rfl : sub = last := by simpa using h
      have hf := ChainedHash.mem_entries.mp (hmem sub List.mem_cons_self)
      rw [overElements, pubnubSubscriptionSetRemove,
        if_pos (by rw [ChainedHash.contains, hf]; rfl)]
      simp [hs]
  | sub :: sub' :: rest, set, hs, hnd, hmem, last, h => by
      rw [List.map_cons, List.nodup_cons] at hnd
      have hfirst := hmem sub List.mem_cons_self
      obtain ⟨hset, hoptions⟩ := setRemove_eq hfirst false
      rw [overElements, ← hoptions]
      · refine overElements_remove_followup (sub' :: rest) _ ?_ hnd.2 ?_ last h
        · rw [setRemove_subscribed, hs]
        · intro x hx
          have hne : x.entity.id ≠ sub.entity.id := fun heq =>
            hnd.1 (heq ▸ List.mem_map_of_mem (f := fun sub => sub.entity.id) hx)
          rw [hset]
          exact ChainedHash.mem_entries_erase_of_ne
            (List.mem_map_of_mem (f := Prod.fst) hfirst) hne
            (hmem x (List.mem_cons_of_mem _ hx))
      · exact List.cons_ne_nil _ _

/-- The elements of a set have different ids. -/
lemma SubscriptionSet.nodup_elements (set : SubscriptionSet) :
    (set.subscriptions.elements.map fun sub => sub.entity.id).Nodup := by
  have hmap : (set.subscriptions.elements.map fun sub => sub.entity.id) =
      set.subscriptions.entries.map Prod.fst := by
    rw [PbhashSet.elements, List.map_map]
    exact List.map_congr_left fun e he => (set.keyed e he).symm
  rw [hmap]
  exact set.subscriptions.nodup_keys

lemma setSubtract_followup {set : SubscriptionSet} (hs : set.subscribed = true)
    {last : Subscription} (hlast : last ∈ set.subscriptions.elements.getLast?) :
    (pubnubSubscriptionSetSubtract set).followup =
      .unsubscribe (pubnubSubscriptionSubscribables last (some set.options)) :=
  overElements_remove_followup _ set hs set.nodup_elements
    (fun _ h => SubscriptionSet.mem_entries_of_mem_elements h) last hlast

lemma setSubtract_sound (set : SubscriptionSet) : (pubnubSubscriptionSetSubtract set).Sound set := by
  refine ⟨overElements_subscribed _ _, fun hs hf => ?_⟩
  cases hlast : set.subscriptions.elements.getLast? with
  | none =>
      rw [List.getLast?_eq_none_iff] at hlast
      rw [pubnubSubscriptionSetSubtract, hlast, overElements]
  | some last =>
      rw [setSubtract_followup hs hlast] at hf
      cases hf

namespace Registry

/-- The merged hash set depends on the active items and on its number of buckets only. -/
lemma collectSubscribables_congr {r r' : Registry} (hsubs : r'.subscriptions = r.subscriptions)
    (hrefs : r'.subscriptionSets = r.subscriptionSets)
    (hlen : r'.subscribables.buckets.length = r.subscribables.buckets.length)
    (hsets : ∀ ref ∈ r.subscriptionSets, (r'.sets[ref]?).map pubnubSubscriptionSetSubscribables =
      (r.sets[ref]?).map pubnubSubscriptionSetSubscribables) :
    r'.collectSubscribables = r.collectSubscribables := by
  have hmap : (r'.subscriptionSets.filterMap fun ref => r'.sets[ref]?).map
        pubnubSubscriptionSetSubscribables =
      (r.subscriptionSets.filterMap fun ref => r.sets[ref]?).map
        pubnubSubscriptionSetSubscribables := by
    rw [hrefs, List.map_filterMap, List.map_filterMap]
    exact List.filterMap_congr hsets
  simp only [collectSubscribables, hsubs, hlen]
  rw [← List.foldl_map (f := pubnubSubscriptionSetSubscribables), hmap, List.foldl_map]

@[simp] lemma collectSubscribables_update (r : Registry) :
    r.updateSubscribables.collectSubscribables = r.collectSubscribables :=
  collectSubscribables_congr rfl rfl r.length_collectSubscribables fun _ _ => rfl

@[simp] lemma collectSubscribables_setSubscribed (r : Registry) (ref : Nat) (flag : Bool) :
    (r.setSubscribed ref flag).collectSubscribables = r.collectSubscribables := by
  refine collectSubscribables_congr rfl rfl rfl fun ref' _ => ?_
  rw [setSubscribed, List.getElem?_modify]
  cases r.sets[ref']? with
  | none => simp
  | some set => by_cases h : ref = ref' <;> simp [h, pubnubSubscriptionSetSubscribables]

end Registry

/-- The invariant of the machine: an active set exists and knows that it is subscribed, and the
    lists of the context are those of the present registry. -/
structure SubscribedState.Settled (st : SubscribedState) : Prop where
  sets : ∀ ref ∈ st.registry.subscriptionSets, ∃ set, st.registry.sets[ref]? = some set ∧
    set.subscribed = true
  lists : ∀ lists, st.request = some lists → lists = eventLists st.registry.collectSubscribables

namespace SubscribedState

variable {st st' : SubscribedState} {r : Registry}

/-- After a change that keeps the sets in order, the lists are right again, provided the change
    did not go unnoticed. -/
lemma Settled.settle {f : Followup} (h : st.Settled)
    (hsets : ∀ ref ∈ r.subscriptionSets, ∃ set, r.sets[ref]? = some set ∧ set.subscribed = true)
    (hsame : f = .nothing → r.collectSubscribables = st.registry.collectSubscribables) :
    (st.settle (r, f)).Settled := by
  cases f with
  | nothing =>
      refine ⟨hsets, fun lists hl => ?_⟩
      rw [h.lists lists hl]
      exact (congrArg eventLists (hsame rfl)).symm
  | subscribe =>
      refine ⟨hsets, fun lists hl => ?_⟩
      obtain rfl := Option.some.inj hl
      exact congrArg eventLists (Registry.collectSubscribables_update r).symm
  | unsubscribe subs =>
      refine ⟨hsets, fun lists hl => ?_⟩
      obtain rfl := Option.some.inj hl
      exact congrArg eventLists (Registry.collectSubscribables_update r).symm

/-- A sound change of one set. -/
lemma Settled.onSet (h : st.Settled) (ref : Nat) {change : SubscriptionSet → SetChange}
    (hc : ∀ set, (change set).Sound set) :
    (st.settle (st.registry.onSet ref change)).Settled := by
  unfold Registry.onSet
  split
  · exact h.settle h.sets fun _ => rfl
  · rename_i set hset
    have hlt : ref < st.registry.sets.length := (List.getElem?_eq_some_iff.mp hset).1
    refine h.settle (fun ref' href' => ?_) fun hf => ?_
    · obtain ⟨set', hset', hsub⟩ := h.sets ref' href'
      rw [List.getElem?_set]
      by_cases heq : ref = ref'
      · subst heq
        obtain rfl := Option.some.inj (hset.symm.trans hset')
        exact ⟨(change set).set, by simp [hlt], (hc set).1.trans hsub⟩
      · exact ⟨set', by simp [heq, hset'], hsub⟩
    · refine Registry.collectSubscribables_congr rfl rfl rfl fun ref' href' => ?_
      obtain ⟨set', hset', hsub⟩ := h.sets ref' href'
      rw [List.getElem?_set]
      by_cases heq : ref = ref'
      · subst heq
        obtain rfl := Option.some.inj (hset.symm.trans hset')
        rw [if_pos rfl, if_pos hlt, (hc set).2 hsub hf, hset]
      · simp [heq]

/-- Marking a set as subscribed, or an inactive one as not subscribed. -/
lemma Settled.setSubscribed (h : st.Settled) (ref : Nat) (flag : Bool)
    (hflag : flag = false → ref ∉ st.registry.subscriptionSets) :
    SubscribedState.Settled { st with registry := st.registry.setSubscribed ref flag } := by
  refine ⟨fun ref' href' => ?_, fun lists hl => ?_⟩
  · obtain ⟨set, hset, hsub⟩ := h.sets ref' href'
    simp only [Registry.setSubscribed, List.getElem?_modify, hset]
    by_cases heq : ref = ref'
    · subst heq
      cases flag with
      | false => exact absurd href' (hflag rfl)
      | true => exact ⟨{ set with subscribed := true }, by simp, rfl⟩
    · exact ⟨set, by simp [heq], hsub⟩
  · rw [h.lists lists hl]
    exact (congrArg eventLists (Registry.collectSubscribables_setSubscribed _ _ _)).symm

/-- **Step lemma.** -/
lemma Settled.call {c : RegistryCall} (h : st.Settled) (hc : st.call c = some st') :
    st'.Settled := by
  cases c with
  | subscribe sub =>
      obtain rfl := Option.some.inj hc
      exact h.settle h.sets fun hf => by simp at hf
  | unsubscribe sub =>
      obtain rfl := Option.some.inj hc
      unfold Registry.unsubscribeWithSubscription
      split
      · exact h.settle h.sets fun hf => by simp at hf
      · exact h.settle h.sets fun _ => rfl
  | subscribeSet ref =>
      simp only [SubscribedState.call] at hc
      split at hc
      · rename_i hlt
        obtain rfl := Option.some.inj hc
        -- the new set may not carry the flag yet, so the sets are checked once it does
        refine ⟨fun ref' href' => ?_, fun lists hl => ?_⟩
        · have hmem : ref' ∈ st.registry.subscriptionSets ∨ ref' = ref := by
            simpa [SubscribedState.settle, Registry.subscribeWithSubscriptionSet,
              Registry.setSubscribed, Registry.updateSubscribables] using href'
          simp only [SubscribedState.settle, Registry.subscribeWithSubscriptionSet,
            Registry.setSubscribed, Registry.updateSubscribables, List.getElem?_modify]
          by_cases heq : ref = ref'
          · subst heq
            exact ⟨{ st.registry.sets[ref] with subscribed := true },
              by simp [List.getElem?_eq_getElem hlt], rfl⟩
          · obtain ⟨set, hset, hsub⟩ := h.sets ref' (hmem.resolve_right fun hr => heq hr.symm)
            exact ⟨set, by simp [heq, hset], hsub⟩
        · obtain rfl := Option.some.inj hl
          rw [Registry.collectSubscribables_setSubscribed]
          exact congrArg eventLists (Registry.collectSubscribables_update _).symm
      · exact absurd hc (by simp)
  | unsubscribeSet ref =>
      simp only [SubscribedState.call, Option.map_eq_some_iff] at hc
      obtain ⟨set, _, hc⟩ := hc
      split at hc
      · rename_i hmem
        obtain rfl := hc
        rw [Registry.unsubscribeWithSubscriptionSet, if_pos hmem]
        refine Settled.setSubscribed (h.settle (fun ref' href' => ?_) fun hf => ?_) ref false
          fun _ hin => ?_
        · exact h.sets ref' (List.mem_of_mem_filter href')
        · simp at hf
        · simp [SubscribedState.settle, Registry.updateSubscribables] at hin
      · exact hc ▸ h
  | allocSet options length subs =>
      obtain rfl := Option.some.inj hc
      have hget : ∀ ref ∈ st.registry.subscriptionSets,
          (st.registry.allocSet options length subs).sets[ref]? = st.registry.sets[ref]? :=
        fun ref href => by
          obtain ⟨set, hset, _⟩ := h.sets ref href
          rw [Registry.allocSet, List.getElem?_append_left (List.getElem?_eq_some_iff.mp hset).1]
      refine h.settle (f := .nothing) (fun ref href => ?_) fun _ => ?_
      · obtain ⟨set, hset, hsub⟩ := h.sets ref href
        exact ⟨set, (hget ref href).trans hset, hsub⟩
      · exact Registry.collectSubscribables_congr rfl rfl rfl fun ref href => by rw [hget ref href]
  | setAdd ref sub =>
      obtain rfl := Option.some.inj hc
      exact h.onSet ref fun set => setAdd_sound set sub
  | setRemove ref sub =>
      obtain rfl := Option.some.inj hc
      exact h.onSet ref fun set => setRemove_sound set sub
  | setUnion ref =>
      obtain rfl := Option.some.inj hc
      exact h.onSet ref fun set => by
        rw [setUnion_eq]
        exact ⟨rfl, fun _ _ => rfl⟩
  | setSubtract ref =>
      obtain rfl := Option.some.inj hc
      exact h.onSet ref setSubtract_sound
  | unsubscribeAll =>
      obtain rfl := Option.some.inj hc
      exact ⟨fun ref href => absurd href List.not_mem_nil, fun lists hl => absurd (show none = some lists from hl) (by simp)⟩

/-- **Run lemma.**  After any sequence of calls the lists are those of the present registry. -/
theorem settled_of_reachable (h : registryMachine.Reachable Machine.anyStep st) : st.Settled :=
  h.invariant
    ⟨fun ref href => absurd href List.not_mem_nil, fun lists hl => absurd (show none = some lists from hl) (by simp)⟩
    fun _ _ _ hs _ hc => hs.call hc

end SubscribedState

/-- A subscription to the channel `room`, and one to the channel group of the same name. -/
def roomChannel : Subscription := ⟨0, ⟨.channel, ascii "room"⟩, {}⟩

@[inherit_doc roomChannel]
def roomGroup : Subscription := ⟨1, ⟨.channelGroup, ascii "room"⟩, {}⟩

/-- The state after subscribing to the channel. -/
def roomState : SubscribedState :=
  registryMachine.init.settle (Registry.empty.subscribeWithSubscription roomChannel)

lemma roomState_reachable : registryMachine.Reachable Machine.anyStep roomState :=
  .step (a := .subscribe roomChannel) .init trivial rfl

end PubNub
