import PubNubCore.Subscribables.Changes

/-!
# What a leave request names

Whoever stops listening to a channel is to be announced as having left it.
`pbcc_subscribe_ee_unsubscribe_` computes the channels and groups for that, with the hash sets
through which the active items are flattened, and sends the leave request at once if the context
is free.  Otherwise the two lists are put aside, and `pbcc_subscribe_ee_postponed_unsubscribe_`
joins everything that was put aside into one request later on.

The machine of this file is the registry with the lists that have been put aside, and with a
ledger: `owed` are the names that have been left and not been announced yet, `due` the ones which
a request is to announce.  Whether the context is free when a leave request is to be sent, and
whether its preparation succeeds, is up to the label of the step.

Three things make a leave request wrong.  A name that is used for a channel and for a channel
group is one text to the hash sets.  Presence that only a set asks for does not count as needed.
And a name that is subscribed again while it is put aside stays there.
-/

namespace PubNub

/-! ## Names -/

namespace Registry

/-- The active subscriptions, each with the options of the set it belongs to. -/
def activeItems (r : Registry) : List (Subscription × Option SubscriptionOptions) :=
  r.subscriptions.map (fun sub => (sub, none)) ++
    r.activeSets.flatMap fun set =>
      set.subscriptions.elements.map fun sub => (sub, some set.options)

/-- The channels or the channel groups themselves, without their presence channels. -/
def names (r : Registry) (location : SubscribableLocation) : List Bytes :=
  (r.activeItems.filter fun x => x.1.entity.location == location).map fun x => x.1.entity.id

/-- The names with the presence channels that somebody asks for. -/
def neededIds (r : Registry) (location : SubscribableLocation) : List Bytes :=
  (r.activeItems.filter fun x => x.1.entity.location == location).flatMap fun x =>
    x.1.entity.id ::
      if x.1.options.receivePresenceEvents || x.2.any (·.receivePresenceEvents) then
        [x.1.entity.id ++ presenceSuffix]
      else []

variable {r r' : Registry} {location : SubscribableLocation} {k : Bytes}

lemma mem_activeItems {sub : Subscription} {owner : Option SubscriptionOptions} :
    (sub, owner) ∈ r.activeItems ↔ r.IsActive sub owner := by
  simp only [activeItems, List.mem_append, List.mem_map, List.mem_flatMap, Prod.mk.injEq]
  cases owner with
  | none => simp [IsActive]
  | some o => simp [IsActive, and_comm]

/-- What is needed is what the lists of a subscribe request should hold. -/
lemma mem_neededIds : k ∈ r.neededIds location ↔ r.Wanted location k := by
  simp only [neededIds, List.mem_flatMap, List.mem_filter, Prod.exists, beq_iff_eq]
  constructor
  · rintro ⟨sub, owner, ⟨hact, hloc⟩, hk⟩
    refine ⟨sub, owner, mem_activeItems.mp hact, hloc, ?_⟩
    rcases List.mem_cons.mp hk with rfl | hk
    · exact .inl rfl
    · right
      split at hk
      · rename_i hask
        refine ⟨?_, List.mem_singleton.mp hk⟩
        simpa [AsksPresence, Option.any_eq_true] using hask
      · exact absurd hk List.not_mem_nil
  · rintro ⟨sub, owner, hact, hloc, hk⟩
    refine ⟨sub, owner, ⟨mem_activeItems.mpr hact, hloc⟩, ?_⟩
    rcases hk with rfl | ⟨hask, rfl⟩
    · exact List.mem_cons_self
    · rw [if_pos (by simpa [AsksPresence, Option.any_eq_true] using hask)]
      exact List.mem_cons_of_mem _ List.mem_cons_self

lemma mem_neededIds_of_mem_names (h : k ∈ r.names location) : k ∈ r.neededIds location := by
  obtain ⟨x, hx, rfl⟩ := List.mem_map.mp h
  exact List.mem_flatMap.mpr ⟨x, hx, List.mem_cons_self⟩

/-- The names which somebody had subscribed and nobody needs any longer. -/
def due (r r' : Registry) (location : SubscribableLocation) : List Bytes :=
  (r.names location).filter fun k => k ∉ r'.neededIds location

lemma mem_due : k ∈ due r r' location ↔ k ∈ r.names location ∧ k ∉ r'.neededIds location := by
  simp [due]

end Registry

/-! ## The machine -/

/-- Whether the context is free, and whether the leave request could be prepared. -/
structure LeaveAnswer where
  canStart : Bool
  started : Bool
  deriving DecidableEq, Repr

/-- A leave request: the text of its two lists, and what they should name. -/
structure LeaveRequest where
  channels : Bytes
  channelGroups : Bytes
  due : SubscribableLocation → List Bytes

/-- The text of one of the two lists. -/
def LeaveRequest.text (q : LeaveRequest) : SubscribableLocation → Bytes
  | .path => q.channels
  | .query => q.channelGroups

/-- The registry, the fields `leave_channels` and `leave_channel_groups` of
    `struct pbcc_subscribe_ee`, and the ledger.  The requests come newest first. -/
structure LeaveState where
  registry : Registry
  leaveChannels : List Bytes
  leaveChannelGroups : List Bytes
  owed : SubscribableLocation → List Bytes
  sent : List LeaveRequest

/-- The lists that have been put aside for one location. -/
def LeaveState.putAside (s : LeaveState) : SubscribableLocation → List Bytes
  | .path => s.leaveChannels
  | .query => s.leaveChannelGroups

/-- What a call changes in the registry, and what it asks of the engine;
    `pubnub_unsubscribe_all` has its own function. -/
def Registry.change (r : Registry) : RegistryCall → Option (Registry × Followup)
  | .subscribe sub => some (r.subscribeWithSubscription sub)
  | .unsubscribe sub => some (r.unsubscribeWithSubscription sub)
  | .subscribeSet ref =>
      if ref < r.sets.length then
        some ((r.subscribeWithSubscriptionSet ref).1.setSubscribed ref true, .subscribe)
      else none
  | .unsubscribeSet ref =>
      (r.sets[ref]?).map fun set =>
        if ref ∈ r.subscriptionSets then
          ((r.unsubscribeWithSubscriptionSet ref set).1.setSubscribed ref false,
            (r.unsubscribeWithSubscriptionSet ref set).2)
        else (r, .nothing)
  | .allocSet options length subs => some (r.allocSet options length subs, .nothing)
  | .setAdd ref sub => some (r.onSet ref fun set => pubnubSubscriptionSetAdd set sub true)
  | .setRemove ref sub => some (r.onSet ref fun set => pubnubSubscriptionSetRemove set sub true)
  | .setUnion ref => some (r.onSet ref pubnubSubscriptionSetUnion)
  | .setSubtract ref => some (r.onSet ref pubnubSubscriptionSetSubtract)
  | .unsubscribeAll => none

namespace LeaveState

variable (s : LeaveState)

/-- The registry has changed, and nobody has been told. -/
def settle (r' : Registry) : LeaveState :=
  { s with
    registry := r'
    owed := fun location =>
      (s.owed location ++ s.registry.due r' location).filter fun k => k ∉ r'.neededIds location }

/-- A list that is not empty is put aside. -/
def toPutAside (text : Bytes) : List Bytes := (nullIfEmpty text).toList

/-- The middle part of `pbcc_subscribe_ee_unsubscribe_` and `pbcc_subscribe_ee_unsubscribe_all`:
    a leave request at once, or its lists are put aside. -/
def leaveOrPostpone (r' : Registry) (lists : SubscribableLists) (a : LeaveAnswer) : LeaveState :=
  if a.canStart then
    { s with
      registry := r'
      owed := fun location => (s.owed location).filter fun k => k ∉ r'.neededIds location
      sent :=
        if a.started then
          ⟨lists.channels, lists.channelGroups, s.registry.due r'⟩ :: s.sent
        else s.sent }
  else
    { s.settle r' with
      leaveChannels := s.leaveChannels ++ toPutAside lists.channels
      leaveChannelGroups := s.leaveChannelGroups ++ toPutAside lists.channelGroups }

/-- `pbcc_subscribe_ee_unsubscribe_`; `r'` is the registry without the removed item. -/
def unsubscribe (r' : Registry) (subscribables : PbhashSet Subscribable) (a : LeaveAnswer) :
    LeaveState :=
  let r' := r'.updateSubscribables
  let lists := pbccSubscribeEeSubscribables
    (noLongerSubscribed r'.subscribables subscribables) false
  if lists.rslt = .ok then s.leaveOrPostpone r' lists a else s.settle r'

/-- `pbcc_subscribe_ee_unsubscribe_all`. -/
def unsubscribeAll (a : LeaveAnswer) : LeaveState :=
  let lists := pbccSubscribeEeSubscribables s.registry.subscribables false
  if lists.rslt = .ok then s.leaveOrPostpone s.registry.removeAll lists a else s

/-- `pbcc_subscribe_ee_postponed_unsubscribe_`, when there is something to send and no other
    transaction of the engine is under way. -/
def postponedUnsubscribe (started : Bool) : LeaveState :=
  { s with
    leaveChannels := []
    leaveChannelGroups := []
    owed := fun _ => []
    sent :=
      if started then
        ⟨joinIds s.leaveChannels, joinIds s.leaveChannelGroups, s.owed⟩ :: s.sent
      else s.sent }

/-- A step: a call of the user, or the end of a transaction. -/
inductive Step
  | call (c : RegistryCall) (a : LeaveAnswer)
  | flush (started : Bool)

/-- The engine's part of a call. -/
def follow (a : LeaveAnswer) : Registry × Followup → LeaveState
  | (r', .nothing) => s.settle r'
  | (r', .subscribe) => s.settle r'.updateSubscribables
  | (r', .unsubscribe subscribables) => s.unsubscribe r' subscribables a

/-- One step. -/
def step : Step → Option LeaveState
  | .call .unsubscribeAll a => some (s.unsubscribeAll a)
  | .call c a => (s.registry.change c).map (s.follow a)
  | .flush started =>
      if s.leaveChannels = [] ∧ s.leaveChannelGroups = [] then none
      else some (s.postponedUnsubscribe started)

end LeaveState

/-- The machine of the leave requests, from a fresh engine. -/
def leaveMachine : Machine LeaveState LeaveState.Step where
  init := ⟨Registry.empty, [], [], fun _ => [], []⟩
  step := LeaveState.step

/-! ## What a leave request should name -/

/-- The text of a list names exactly these non-empty names, each of them once. -/
def NamesExactly (text : Bytes) (names : List Bytes) : Prop :=
  ∃ ids : List Bytes, (ids.filter (· ≠ [])).Nodup ∧ (∀ k, k ≠ [] → (k ∈ ids ↔ k ∈ names)) ∧
    text = joinIds ids

/-- Both lists of a leave request are right. -/
def LeaveRequest.Exact (q : LeaveRequest) : Prop :=
  ∀ location, NamesExactly (q.text location) (q.due location)

/-- The removed item and what stays subscribed are told apart by the texts of their ids: what is
    left was subscribed, what is still needed is among the texts of the active items, and what is
    no longer needed is not among them, but is a name of the removed item. -/
structure Registry.LeavesClear (r r' : Registry) (removed : PbhashSet Subscribable) : Prop where
  wasSubscribed : ∀ e ∈ removed.entries, e.1 ≠ [] → e.2.isPresence = false →
    e.1 ∈ r.names e.2.location
  told : ∀ location ∈ [SubscribableLocation.path, .query], ∀ k ∈ r.names location, k ≠ [] →
    if k ∈ r'.neededIds location then r'.collectSubscribables.contains k = true
    else r'.collectSubscribables.contains k = false ∧
      (removed.find? k).any (fun v => v.location == location && !v.isPresence) = true

/-- The condition for a call: a removed item is told apart from what stays, without an item
    removed no name is left, and no name that is put aside is subscribed again. -/
structure LeaveState.CallClear (s : LeaveState) (r' : Registry) (f : Followup) : Prop where
  clear : match f with
    | .unsubscribe subscribables => s.registry.LeavesClear r' subscribables
    | _ => ∀ location ∈ [SubscribableLocation.path, .query], s.registry.due r' location = []
  notAgain : ∀ location ∈ [SubscribableLocation.path, .query], ∀ k ∈ s.owed location, k ≠ [] →
    k ∉ r'.neededIds location

/-- The condition for a step. -/
def LeaveState.StepClear (s : LeaveState) : Step → Prop
  | .call c _ => (s.registry.change c).elim
      (s.CallClear s.registry.removeAll (.unsubscribe s.registry.subscribables))
      fun x => s.CallClear x.1 x.2
  | .flush _ => True

instance (r r' : Registry) (removed : PbhashSet Subscribable) :
    Decidable (r.LeavesClear r' removed) :=
  decidable_of_iff (_ ∧ _) ⟨fun h => ⟨h.1, h.2⟩, fun h => ⟨h.wasSubscribed, h.told⟩⟩

instance (s : LeaveState) (r' : Registry) : (f : Followup) → Decidable (s.CallClear r' f)
  | .unsubscribe removed =>
      decidable_of_iff (s.registry.LeavesClear r' removed ∧ _)
        ⟨fun h => ⟨h.1, h.2⟩, fun h => ⟨h.clear, h.notAgain⟩⟩
  | .nothing | .subscribe =>
      decidable_of_iff ((∀ location ∈ [SubscribableLocation.path, .query],
          s.registry.due r' location = []) ∧ _)
        ⟨fun h => ⟨h.1, h.2⟩, fun h => ⟨h.clear, h.notAgain⟩⟩

instance (s : LeaveState) : (l : LeaveState.Step) → Decidable (s.StepClear l)
  | .flush _ => isTrue trivial
  | .call c _ =>
      match h : s.registry.change c with
      | none => decidable_of_iff
          (s.CallClear s.registry.removeAll (.unsubscribe s.registry.subscribables))
          (by simp only [LeaveState.StepClear, h, Option.elim_none])
      | some x => decidable_of_iff (s.CallClear x.1 x.2)
          (by simp only [LeaveState.StepClear, h, Option.elim_some])

/-! ## The ids which the lists are printed from -/

/-- The ids of one location without the presence channels, in the order of the hash set. -/
def leftIds (subscribables : PbhashSet Subscribable) (location : SubscribableLocation) :
    List Bytes :=
  ((subscribables.elements.filter fun sub => !sub.isPresence).filter
    fun sub => sub.location == location).map Subscribable.id

/-- A table whose entries carry their key as id, and which has a bucket. -/
structure PbhashSet.Keyed (set : PbhashSet Subscribable) : Prop where
  id_eq : ∀ k v, set.find? k = some v → v.id = k
  buckets_pos : 0 < set.buckets.length

lemma Registry.keyed_updateSubscribables (r : Registry) :
    r.updateSubscribables.subscribables.Keyed where
  id_eq := fun _ _ h => collectSubscribables_id h
  buckets_pos := r.updateSubscribables.buckets_pos

lemma mem_leftIds {set : PbhashSet Subscribable} (h : set.Keyed)
    {location : SubscribableLocation} {k : Bytes} : k ∈ leftIds set location ↔
      (set.find? k).any (fun v => v.location == location && !v.isPresence) = true := by
  simp only [leftIds, PbhashSet.elements, List.mem_map, List.mem_filter, Prod.exists,
    Option.any_eq_true, Bool.and_eq_true, Bool.not_eq_true', beq_iff_eq]
  constructor
  · rintro ⟨v, ⟨⟨⟨k', w, hw, rfl⟩, hpres⟩, hloc⟩, rfl⟩
    have hf := ChainedHash.mem_entries.mp hw
    obtain rfl := h.id_eq k' w hf
    exact ⟨w, hf, hloc, hpres⟩
  · rintro ⟨v, hf, hloc, hpres⟩
    exact ⟨v, ⟨⟨⟨k, v, ChainedHash.mem_entries.mpr hf, rfl⟩, hpres⟩, hloc⟩, h.id_eq k v hf⟩

lemma nodup_leftIds {set : PbhashSet Subscribable} (h : set.Keyed)
    (location : SubscribableLocation) : (leftIds set location).Nodup := by
  have hmap : set.elements.map Subscribable.id = set.entries.map Prod.fst := by
    rw [PbhashSet.elements, List.map_map]
    exact List.map_congr_left fun e he => h.id_eq e.1 e.2 (ChainedHash.mem_entries.mp he)
  have hsub : (leftIds set location).Sublist (set.elements.map Subscribable.id) :=
    (List.filter_sublist.trans List.filter_sublist).map _
  rw [hmap] at hsub
  exact set.nodup_keys.sublist hsub

lemma leaveIds_path (set : PbhashSet Subscribable) :
    ((set.elements.filter fun sub => false || !sub.isPresence).filter
      fun sub => !sub.isCg).map Subscribable.id = leftIds set .path := by
  simp only [leftIds, Bool.false_or]
  congr 2
  funext sub
  simp only [Subscribable.isCg]
  cases sub.location <;> rfl

/-- **The lists of a leave request** are printed from the ids without the presence channels; there
    is no request when none of them has a letter. -/
lemma leaveLists_eq (set : PbhashSet Subscribable) :
    (pbccSubscribeEeSubscribables set false).channels = joinIds (leftIds set .path) ∧
      (pbccSubscribeEeSubscribables set false).channelGroups = joinIds (leftIds set .query) ∧
      ((pbccSubscribeEeSubscribables set false).rslt ≠ .ok →
        ∀ location, ∀ k ∈ leftIds set location, k = []) := by
  simp only [pbccSubscribeEeSubscribables, leaveIds_path]
  refine ⟨trivial, rfl, fun h location k hk => ?_⟩
  by_contra hne
  refine h (if_neg fun hz => hne ?_)
  have hzero : ((leftIds set location).map List.length).sum = 0 := by
    cases location with
    | path => exact hz.1
    | query => exact hz.2
  exact List.length_eq_zero_iff.mp
    (List.sum_eq_zero_iff.mp hzero _ (List.mem_map_of_mem hk))

/-- Taking out what stays subscribed. -/
lemma find?_foldl_erase (subscribed : PbhashSet Subscribable) (subs : List Subscribable)
    (acc : PbhashSet Subscribable) (hacc : 0 < acc.buckets.length) (k : Bytes) :
    (subs.foldl (fun acc sub => if subscribed.contains sub.id then acc.erase sub.id else acc)
      acc).find? k =
      if subscribed.contains k = true ∧ k ∈ subs.map Subscribable.id then none
      else acc.find? k := by
  induction subs generalizing acc with
  | nil => simp
  | cons sub subs ih =>
      rw [List.foldl_cons, ih]
      · by_cases hc : subscribed.contains sub.id = true
        · rw [if_pos hc, ChainedHash.find?_erase (pbhashSetAlloc_hash_lt acc hacc _)]
          by_cases hk : k = sub.id
          · simp [hk, hc]
          · simp [hk]
        · rw [if_neg hc]
          by_cases hk : k = sub.id
          · simp [hk, hc]
          · simp [hk]
      · split
        · rwa [ChainedHash.length_erase]
        · exact hacc

lemma keyed_noLongerSubscribed (subscribed : PbhashSet Subscribable)
    {set : PbhashSet Subscribable} (h : set.Keyed) :
    (∀ k, (noLongerSubscribed subscribed set).find? k =
      if subscribed.contains k = true then none else set.find? k) ∧
    (noLongerSubscribed subscribed set).Keyed := by
  have hfind : ∀ k, (noLongerSubscribed subscribed set).find? k =
      if subscribed.contains k = true then none else set.find? k := fun k => by
    rw [noLongerSubscribed, find?_foldl_erase _ _ _ h.buckets_pos]
    by_cases hk : k ∈ set.elements.map Subscribable.id
    · simp [hk]
    · have hnone : set.find? k = none := by
        by_contra hsome
        obtain ⟨v, hv⟩ := Option.ne_none_iff_exists'.mp hsome
        refine hk (List.mem_map.mpr ⟨v, List.mem_map.mpr ⟨(k, v), ?_, rfl⟩, h.id_eq k v hv⟩)
        exact ChainedHash.mem_entries.mpr hv
      simp [hnone]
  refine ⟨hfind, fun k v hv => ?_, ?_⟩
  · rw [hfind] at hv
    split at hv
    · cases hv
    · exact h.id_eq k v hv
  · have hlen : ∀ (subs : List Subscribable) (acc : PbhashSet Subscribable),
        (subs.foldl (fun acc sub => if subscribed.contains sub.id then acc.erase sub.id else acc)
          acc).buckets.length = acc.buckets.length := by
      intro subs
      induction subs with
      | nil => exact fun _ => rfl
      | cons sub subs ih =>
          intro acc
          rw [List.foldl_cons, ih]
          split
          · exact ChainedHash.length_erase
          · rfl
    rw [noLongerSubscribed, hlen]
    exact h.buckets_pos

/-! ## Joining lists -/

lemma foldl_appendId_append (a : Bytes) {b : Bytes} (hb : b ≠ []) (ids : List Bytes) :
    ids.foldl appendId (a ++ b) = a ++ ids.foldl appendId b := by
  induction ids generalizing b with
  | nil => rfl
  | cons id ids ih =>
      have happ : appendId (a ++ b) id = a ++ appendId b id := by
        have hpos : 0 < b.length := List.length_pos_iff.mpr hb
        simp only [appendId, List.length_append]
        rw [if_pos (by omega), if_pos hpos]
        simp only [List.append_assoc]
      rw [List.foldl_cons, List.foldl_cons, happ, ih]
      simp [appendId, hb]

/-- Empty ids at the front leave no trace. -/
lemma joinIds_dropWhile (ids : List Bytes) : joinIds (ids.dropWhile (· = [])) = joinIds ids := by
  induction ids with
  | nil => rfl
  | cons id ids ih =>
      by_cases hid : id = []
      · subst hid
        rw [List.dropWhile_cons_of_pos (by simp), ih]
        rfl
      · rw [List.dropWhile_cons_of_neg (by simpa using hid)]

lemma joinIds_eq_nil_iff {ids : List Bytes} : joinIds ids = [] ↔ ∀ k ∈ ids, k = [] := by
  constructor
  · intro h k hk
    by_contra hne
    have hlow := (length_joinIds ids).1
    have hle : printedLength k ≤ printedLengths ids :=
      List.single_le_sum (fun _ _ => Nat.zero_le _) _ (List.mem_map_of_mem hk)
    have hlen : 0 < k.length := List.length_pos_iff.mpr hne
    rw [h] at hlow
    simp only [printedLength, if_neg hne, List.length_nil] at hle hlow
    omega
  · intro h
    refine joinIds_of_sum_eq_zero (List.sum_eq_zero_iff.mpr fun n hn => ?_)
    obtain ⟨k, hk, rfl⟩ := List.mem_map.mp hn
    rw [h k hk, List.length_nil]

lemma joinIds_append_cons {done : List Bytes} (hd : joinIds done ≠ []) {id : Bytes}
    (hid : id ≠ []) (ids : List Bytes) :
    joinIds (done ++ id :: ids) = appendId (joinIds done) (joinIds (id :: ids)) := by
  have hpos : (joinIds done).length > 0 := List.length_pos_iff.mpr hd
  have hfirst : joinIds (id :: ids) = ids.foldl appendId id := rfl
  have hall : joinIds (done ++ id :: ids) = (id :: ids).foldl appendId (joinIds done) :=
    List.foldl_append
  rw [hall, hfirst, List.foldl_cons, appendId, if_pos hpos, foldl_appendId_append _ hid, appendId,
    if_pos hpos]

/-- A text that is not empty begins with an id that is not empty. -/
lemma exists_dropWhile_eq_cons {ids : List Bytes} (h : joinIds ids ≠ []) :
    ∃ id rest, id ≠ [] ∧ ids.dropWhile (· = []) = id :: rest := by
  cases hdrop : ids.dropWhile (· = []) with
  | nil =>
      rw [← joinIds_dropWhile, hdrop] at h
      exact absurd rfl h
  | cons id rest =>
      have hhead := List.head?_dropWhile_not (· = []) ids
      rw [hdrop] at hhead
      exact ⟨id, rest, by simpa using hhead, rfl⟩

lemma filter_dropWhile (ids : List Bytes) :
    (ids.dropWhile (· = [])).filter (· ≠ []) = ids.filter (· ≠ []) := by
  induction ids with
  | nil => rfl
  | cons id ids ih =>
      by_cases hid : id = []
      · rw [List.dropWhile_cons_of_pos (by simpa using hid), ih,
          List.filter_cons_of_neg (by simpa using hid)]
      · rw [List.dropWhile_cons_of_neg (by simpa using hid)]

/-- Joining texts joins their ids, but for empty ones. -/
lemma exists_foldl_joinIds (idss : List (List Bytes)) (h : ∀ ids ∈ idss, joinIds ids ≠ [])
    (done : List Bytes) (hd : joinIds done ≠ []) :
    ∃ ids : List Bytes, ids.filter (· ≠ []) = (done ++ idss.flatten).filter (· ≠ []) ∧
      (idss.map joinIds).foldl appendId (joinIds done) = joinIds ids := by
  induction idss generalizing done with
  | nil => exact ⟨done, by simp, rfl⟩
  | cons ids idss ih =>
      obtain ⟨id, rest, hid, hdrop⟩ := exists_dropWhile_eq_cons (h ids List.mem_cons_self)
      have htext : appendId (joinIds done) (joinIds ids) =
          joinIds (done ++ ids.dropWhile (· = [])) := by
        rw [hdrop, joinIds_append_cons hd hid, ← hdrop, joinIds_dropWhile]
      have hne : joinIds (done ++ ids.dropWhile (· = [])) ≠ [] := by
        rw [← htext, appendId]
        simp [hd]
      obtain ⟨all, hall, hjoin⟩ := ih (fun l hl => h l (List.mem_cons_of_mem _ hl)) _ hne
      refine ⟨all, ?_, ?_⟩
      · rw [hall, List.filter_append, List.filter_append, filter_dropWhile, List.flatten_cons,
          List.filter_append, List.filter_append, List.append_assoc]
      · rw [List.map_cons, List.foldl_cons, htext, hjoin]

lemma exists_joinIds_map (idss : List (List Bytes)) (h : ∀ ids ∈ idss, joinIds ids ≠ []) :
    ∃ ids : List Bytes, ids.filter (· ≠ []) = idss.flatten.filter (· ≠ []) ∧
      joinIds (idss.map joinIds) = joinIds ids := by
  cases idss with
  | nil => exact ⟨[], rfl, rfl⟩
  | cons ids idss =>
      obtain ⟨all, hall, hjoin⟩ := exists_foldl_joinIds idss
        (fun l hl => h l (List.mem_cons_of_mem _ hl)) ids (h ids List.mem_cons_self)
      exact ⟨all, hall, hjoin⟩

/-! ## The invariant -/

/-- The texts put aside name exactly these non-empty names. -/
def AsideExactly (texts names : List Bytes) : Prop :=
  ∃ idss : List (List Bytes), texts = idss.map joinIds ∧ (∀ ids ∈ idss, joinIds ids ≠ []) ∧
    (idss.flatten.filter (· ≠ [])).Nodup ∧ ∀ k, k ≠ [] → (k ∈ idss.flatten ↔ k ∈ names)

/-- Lists with the same non-empty names are put aside alike. -/
lemma AsideExactly.congr {texts names names' : List Bytes} (h : AsideExactly texts names)
    (hn : ∀ k, k ≠ [] → (k ∈ names ↔ k ∈ names')) : AsideExactly texts names' := by
  obtain ⟨idss, htexts, hne, hnd, hmem⟩ := h
  exact ⟨idss, htexts, hne, hnd, fun k hk => (hmem k hk).trans (hn k hk)⟩

/-- What has been put aside is sent. -/
lemma AsideExactly.namesExactly {texts names : List Bytes} (h : AsideExactly texts names) :
    NamesExactly (joinIds texts) names := by
  obtain ⟨idss, rfl, hne, hnd, hmem⟩ := h
  obtain ⟨ids, hids, hjoin⟩ := exists_joinIds_map idss hne
  refine ⟨ids, hids ▸ hnd, fun k hk => ?_, hjoin⟩
  rw [← hmem k hk]
  have hiff : k ∈ ids.filter (· ≠ []) ↔ k ∈ idss.flatten.filter (· ≠ []) := by rw [hids]
  simpa [hk] using hiff

/-- One more list is put aside. -/
lemma AsideExactly.add {texts names ids new : List Bytes} (h : AsideExactly texts names)
    (hnd : ids.Nodup) (hids : ∀ k, k ≠ [] → (k ∈ ids ↔ k ∈ new))
    (hdisj : ∀ k ∈ new, k ∉ names) :
    AsideExactly (texts ++ LeaveState.toPutAside (joinIds ids)) (names ++ new) := by
  obtain ⟨idss, rfl, hne, hnodup, hmem⟩ := h
  by_cases hempty : joinIds ids = []
  · have hnone : ∀ k, k ≠ [] → k ∉ new := fun k hk hnew =>
      hk (joinIds_eq_nil_iff.mp hempty k ((hids k hk).mpr hnew))
    refine ⟨idss, by simp [LeaveState.toPutAside, nullIfEmpty, hempty], hne, hnodup,
      fun k hk => ?_⟩
    rw [hmem k hk, List.mem_append]
    exact ⟨.inl, fun hor => hor.resolve_right (hnone k hk)⟩
  · refine ⟨idss ++ [ids], by simp [LeaveState.toPutAside, nullIfEmpty, hempty], ?_, ?_, ?_⟩
    · intro l hl
      rcases List.mem_append.mp hl with hl | hl
      · exact hne l hl
      · exact List.mem_singleton.mp hl ▸ hempty
    · rw [List.flatten_append, List.flatten_singleton, List.filter_append, List.nodup_append']
      refine ⟨hnodup, hnd.filter _, fun k hk hk' => ?_⟩
      obtain ⟨hmem₁, hk₁⟩ := List.mem_filter.mp hk
      have hne' : k ≠ [] := by simpa using hk₁
      exact hdisj k ((hids k hne').mp (List.mem_filter.mp hk').1) ((hmem k hne').mp hmem₁)
    · intro k hk
      rw [List.flatten_append, List.flatten_singleton, List.mem_append, List.mem_append,
        hmem k hk, hids k hk]

namespace LeaveState

/-- **The invariant.**  The requests sent were right, what has been put aside is what is owed,
    and nothing that is owed is needed. -/
structure Sound (s : LeaveState) : Prop where
  sent : ∀ q ∈ s.sent, q.Exact
  aside : ∀ location, AsideExactly (s.putAside location) (s.owed location)
  notNeeded : ∀ location, ∀ k ∈ s.owed location, k ∉ s.registry.neededIds location
  keyed : s.registry.subscribables.Keyed

variable {s : LeaveState} {r' : Registry}

/-- Nothing that is owed is needed after the change either. -/
lemma CallClear.owed {f : Followup} (h : s.CallClear r' f) (location : SubscribableLocation) :
    ∀ k ∈ s.owed location, k ≠ [] → k ∉ r'.neededIds location := by
  cases location with
  | path => exact h.notAgain .path (by simp)
  | query => exact h.notAgain .query (by simp)

/-- When nothing is left by a call, what is owed stays what has been put aside. -/
lemma Sound.settle (h : s.Sound) (hkeyed : r'.subscribables.Keyed)
    (hdue : ∀ location k, k ≠ [] → k ∉ s.registry.due r' location)
    (howed : ∀ location, ∀ k ∈ s.owed location, k ≠ [] → k ∉ r'.neededIds location) :
    (s.settle r').Sound where
  sent := h.sent
  aside := fun location => by
    refine (h.aside location).congr fun k hk => ?_
    simp only [LeaveState.settle, List.mem_filter, List.mem_append, decide_eq_true_eq]
    constructor
    · exact fun hmem => ⟨.inl hmem, howed location k hmem hk⟩
    · exact fun hmem => hmem.1.resolve_right (hdue location k hk)
  notNeeded := fun _ _ hk => of_decide_eq_true (List.mem_filter.mp hk).2
  keyed := hkeyed

/-- What is left by a call has not been owed before. -/
lemma Sound.due_not_owed (h : s.Sound) {location : SubscribableLocation} {k : Bytes}
    (hk : k ∈ s.registry.due r' location) : k ∉ s.owed location := fun howed =>
  h.notNeeded location k howed
    (Registry.mem_neededIds_of_mem_names (Registry.mem_due.mp hk).1)

/-- A leave request whose lists name what is due, at once or put aside. -/
lemma Sound.leaveOrPostpone (h : s.Sound) (hkeyed : r'.subscribables.Keyed)
    {lists : SubscribableLists} {ids : SubscribableLocation → List Bytes}
    (hnd : ∀ location, (ids location).Nodup)
    (hids : ∀ location k, k ≠ [] → (k ∈ ids location ↔ k ∈ s.registry.due r' location))
    (hch : lists.channels = joinIds (ids .path)) (hcg : lists.channelGroups = joinIds (ids .query))
    (howed : ∀ location, ∀ k ∈ s.owed location, k ≠ [] → k ∉ r'.neededIds location)
    (a : LeaveAnswer) : (s.leaveOrPostpone r' lists a).Sound := by
  rw [LeaveState.leaveOrPostpone]
  split
  · refine ⟨fun q hq => ?_, fun location => ?_, fun location k hk => ?_, hkeyed⟩
    · dsimp only at hq
      split at hq
      · rcases List.mem_cons.mp hq with rfl | hq
        · intro location
          have htext : LeaveRequest.text ⟨lists.channels, lists.channelGroups,
              s.registry.due r'⟩ location = joinIds (ids location) := by
            cases location with
            | path => exact hch
            | query => exact hcg
          exact ⟨ids location, (hnd location).filter _, hids location, htext⟩
        · exact h.sent q hq
      · exact h.sent q hq
    · refine (h.aside location).congr fun k hk => ?_
      simp only [List.mem_filter, decide_eq_true_eq]
      exact ⟨fun hmem => ⟨hmem, howed location k hmem hk⟩, fun hmem => hmem.1⟩
    · exact of_decide_eq_true (List.mem_filter.mp hk).2
  · refine ⟨h.sent, fun location => ?_, fun location k hk => ?_, hkeyed⟩
    · have hadd := (h.aside location).add (hnd location) (hids location)
        fun k => h.due_not_owed
      have haside : AsideExactly
          (s.putAside location ++ LeaveState.toPutAside (joinIds (ids location)))
          ((s.owed location ++ s.registry.due r' location).filter
            fun k => k ∉ r'.neededIds location) := by
        refine hadd.congr fun k hk => ?_
        simp only [List.mem_filter, List.mem_append, decide_eq_true_eq]
        refine ⟨fun hmem => ⟨hmem, ?_⟩, fun hmem => hmem.1⟩
        rcases hmem with hmem | hmem
        · exact howed location k hmem hk
        · exact (Registry.mem_due.mp hmem).2
      cases location with
      | path => exact hch ▸ haside
      | query => exact hcg ▸ haside
    · exact of_decide_eq_true (List.mem_filter.mp hk).2

/-- Where the texts tell the removed item apart, the engine's hash sets compute what is due. -/
lemma mem_leftIds_iff {r : Registry} {removed : PbhashSet Subscribable} (hkeyed : removed.Keyed)
    (h : r.LeavesClear r' removed) (location : SubscribableLocation) {k : Bytes} (hk : k ≠ []) :
    k ∈ leftIds (noLongerSubscribed r'.updateSubscribables.subscribables removed) location ↔
      k ∈ r.due r' location := by
  obtain ⟨hfind, hkept⟩ :=
    keyed_noLongerSubscribed r'.updateSubscribables.subscribables hkeyed
  have hall : location ∈ [SubscribableLocation.path, .query] := by cases location <;> simp
  have htold := h.told location hall k
  rw [mem_leftIds hkept, hfind, Registry.mem_due]
  constructor
  · intro hany
    split at hany
    · cases hany
    · rename_i hnot
      obtain ⟨v, hv, hp⟩ := (Option.any_eq_true _ _).mp hany
      rw [Bool.and_eq_true, beq_iff_eq, Bool.not_eq_true'] at hp
      have hname := h.wasSubscribed (k, v) (ChainedHash.mem_entries.mpr hv) hk hp.2
      rw [hp.1] at hname
      refine ⟨hname, fun hneeded => hnot ?_⟩
      have hcontains := htold hname hk
      rwa [if_pos hneeded] at hcontains
  · rintro ⟨hname, hnot⟩
    have hclear := htold hname hk
    rw [if_neg hnot] at hclear
    rw [if_neg]
    · exact hclear.2
    · exact fun hc => Bool.false_ne_true (hclear.1.symm.trans hc)

/-! ## One step -/

/-- The hash set which a call hands over is keyed, and the engine's own one stays what it was. -/
def FollowupKeyed (r : Registry) (x : Registry × Followup) : Prop :=
  x.1.subscribables = r.subscribables ∧
    ∀ removed, x.2 = .unsubscribe removed → removed.Keyed

lemma keyed_subscriptionSubscribables (sub : Subscription) (o : Option SubscriptionOptions) :
    (pubnubSubscriptionSubscribables sub o).Keyed where
  id_eq := fun k v h => by
    rw [find?_subscriptionSubscribables] at h
    exact (Subscription.subscribable?_spec h).1
  buckets_pos := by
    rw [subscriptionSubscribables_options]
    simp only [pubnubSubscriptionSubscribables]
    split
    · rw [ChainedHash.length_insertNew, ChainedHash.length_insertNew]
      simp [pbhashSetAlloc, ChainedHash.alloc]
    · rw [ChainedHash.length_insertNew]
      simp [pbhashSetAlloc, ChainedHash.alloc]

lemma keyed_setSubscribables (set : SubscriptionSet) :
    (pubnubSubscriptionSetSubscribables set).Keyed where
  id_eq := fun k v h => by
    rw [find?_setSubscribables] at h
    obtain ⟨sub, _, hs⟩ := List.exists_of_findSome?_eq_some h
    exact (Subscription.subscribable?_spec hs).1
  buckets_pos := by
    rw [pubnubSubscriptionSetSubscribables, Registry.length_foldl_union]
    simp only [pbhashSetAlloc, ChainedHash.alloc, List.length_replicate]
    split <;> split <;> omega

/-- What a change of a set hands over is keyed. -/
def SetChangeKeyed (c : SetChange) : Prop := ∀ removed, c.followup = .unsubscribe removed → removed.Keyed

lemma setChangeKeyed_add (set : SubscriptionSet) (sub : Subscription) (notify : Bool) :
    SetChangeKeyed (pubnubSubscriptionSetAdd set sub notify) := by
  intro removed h
  rw [pubnubSubscriptionSetAdd] at h
  split at h
  · cases h
  · dsimp only at h
    split at h <;> cases h

lemma setChangeKeyed_remove (set : SubscriptionSet) (sub : Subscription) (notify : Bool) :
    SetChangeKeyed (pubnubSubscriptionSetRemove set sub notify) := by
  intro removed h
  rw [pubnubSubscriptionSetRemove] at h
  split at h
  · dsimp only at h
    split at h
    · obtain rfl := Followup.unsubscribe.inj h
      exact keyed_subscriptionSubscribables sub _
    · cases h
  · cases h

lemma setChangeKeyed_overElements {change : SubscriptionSet → Subscription → Bool → SetChange}
    (h : ∀ set sub notify, SetChangeKeyed (change set sub notify)) (subs : List Subscription)
    (set : SubscriptionSet) : SetChangeKeyed (overElements change subs set) := by
  induction subs generalizing set with
  | nil =>
      intro removed hr
      cases hr
  | cons sub rest ih =>
      cases rest with
      | nil => exact h set sub true
      | cons sub' rest =>
          rw [overElements]
          · exact ih _
          · exact List.cons_ne_nil _ _

lemma followupKeyed_onSet (r : Registry) (ref : Nat) {change : SubscriptionSet → SetChange}
    (h : ∀ set, SetChangeKeyed (change set)) : FollowupKeyed r (r.onSet ref change) := by
  rw [Registry.onSet]
  split
  · exact ⟨rfl, fun removed hr => by cases hr⟩
  · exact ⟨rfl, h _⟩

lemma followupKeyed_change {r : Registry} {c : RegistryCall} {x : Registry × Followup}
    (h : r.change c = some x) : FollowupKeyed r x := by
  cases c with
  | subscribe sub =>
      obtain rfl := Option.some.inj h
      exact ⟨rfl, fun removed hr => by cases hr⟩
  | unsubscribe sub =>
      obtain rfl := Option.some.inj h
      rw [Registry.unsubscribeWithSubscription]
      split
      · refine ⟨rfl, fun removed hr => ?_⟩
        obtain rfl := Followup.unsubscribe.inj hr
        exact keyed_subscriptionSubscribables sub none
      · exact ⟨rfl, fun removed hr => by cases hr⟩
  | subscribeSet ref =>
      simp only [Registry.change, Option.ite_none_right_eq_some, Option.some.injEq] at h
      obtain ⟨_, rfl⟩ := h
      exact ⟨rfl, fun removed hr => by cases hr⟩
  | unsubscribeSet ref =>
      obtain ⟨set, _, rfl⟩ := Option.map_eq_some_iff.mp h
      split
      · rename_i hmem
        simp only [Registry.unsubscribeWithSubscriptionSet, if_pos hmem]
        refine ⟨rfl, fun removed hr => ?_⟩
        obtain rfl := Followup.unsubscribe.inj hr
        exact keyed_setSubscribables set
      · exact ⟨rfl, fun removed hr => by cases hr⟩
  | allocSet options length subs =>
      obtain rfl := Option.some.inj h
      exact ⟨rfl, fun removed hr => by cases hr⟩
  | setAdd ref sub =>
      obtain rfl := Option.some.inj h
      exact followupKeyed_onSet r ref fun set => setChangeKeyed_add set sub true
  | setRemove ref sub =>
      obtain rfl := Option.some.inj h
      exact followupKeyed_onSet r ref fun set => setChangeKeyed_remove set sub true
  | setUnion ref =>
      obtain rfl := Option.some.inj h
      exact followupKeyed_onSet r ref fun set =>
        setChangeKeyed_overElements setChangeKeyed_add _ set
  | setSubtract ref =>
      obtain rfl := Option.some.inj h
      exact followupKeyed_onSet r ref fun set =>
        setChangeKeyed_overElements setChangeKeyed_remove _ set
  | unsubscribeAll => cases h

/-- A leave request, or nothing that would have to be announced. -/
lemma Sound.unsubscribe (h : s.Sound) {removed : PbhashSet Subscribable} (hkeyed : removed.Keyed)
    (hc : s.CallClear r' (.unsubscribe removed)) (a : LeaveAnswer) :
    (s.unsubscribe r' removed a).Sound := by
  have hdone := r'.keyed_updateSubscribables
  obtain ⟨hch, hcg, hno⟩ :=
    leaveLists_eq (noLongerSubscribed r'.updateSubscribables.subscribables removed)
  have hmem := fun location k (hk : k ≠ []) =>
    mem_leftIds_iff hkeyed hc.clear location hk
  rw [LeaveState.unsubscribe]
  split
  · exact h.leaveOrPostpone hdone (nodup_leftIds (keyed_noLongerSubscribed _ hkeyed).2) hmem hch hcg
      hc.owed a
  · rename_i hnot
    refine h.settle hdone (fun location k hk hdue => ?_) hc.owed
    exact hk (hno hnot location k ((hmem location k hk).mpr hdue))

/-- When everything is unsubscribed, everything that was subscribed is left. -/
lemma Sound.unsubscribeAll (h : s.Sound)
    (hc : s.CallClear s.registry.removeAll (.unsubscribe s.registry.subscribables))
    (a : LeaveAnswer) : (s.unsubscribeAll a).Sound := by
  obtain ⟨hch, hcg, _⟩ := leaveLists_eq s.registry.subscribables
  have hempty : ∀ k, s.registry.removeAll.updateSubscribables.subscribables.contains k = false := by
    intro k
    show ((Registry.collectSubscribables s.registry.removeAll).find? k).isSome = false
    rw [find?_collectSubscribables]
    rfl
  have hmem : ∀ location k, k ≠ [] → (k ∈ leftIds s.registry.subscribables location ↔
      k ∈ s.registry.due s.registry.removeAll location) := fun location k hk => by
    rw [← mem_leftIds_iff h.keyed hc.clear _ hk, mem_leftIds h.keyed,
      mem_leftIds (keyed_noLongerSubscribed _ h.keyed).2, (keyed_noLongerSubscribed _ h.keyed).1,
      hempty k]
    rfl
  have hkept : s.registry.removeAll.subscribables.Keyed := h.keyed
  rw [LeaveState.unsubscribeAll]
  split
  · exact h.leaveOrPostpone hkept (nodup_leftIds h.keyed) hmem hch hcg hc.owed a
  · exact h

/-- Sending what has been put aside. -/
lemma Sound.postponedUnsubscribe (h : s.Sound) (started : Bool) :
    (s.postponedUnsubscribe started).Sound where
  sent := fun q hq => by
    simp only [LeaveState.postponedUnsubscribe] at hq
    split at hq
    · rcases List.mem_cons.mp hq with rfl | hq
      · intro location
        cases location with
        | path => exact (h.aside .path).namesExactly
        | query => exact (h.aside .query).namesExactly
      · exact h.sent q hq
    · exact h.sent q hq
  aside := fun location => by
    have hnone : (s.postponedUnsubscribe started).putAside location = [] := by
      cases location <;> rfl
    rw [hnone]
    exact ⟨[], rfl, by simp, by simp, fun _ _ => Iff.rfl⟩
  notNeeded := fun _ _ hk => absurd hk List.not_mem_nil
  keyed := h.keyed

/-- **One step.** -/
lemma sound_step {s' : LeaveState} {l : Step} (h : s.Sound) (hg : s.StepClear l)
    (hs : s.step l = some s') : s'.Sound := by
  have hcall : ∀ c a, (s.registry.change c).map (s.follow a) = some s' →
      s.StepClear (.call c a) → s'.Sound := by
    intro c a hmap hclear
    obtain ⟨⟨r', f⟩, hx, rfl⟩ := Option.map_eq_some_iff.mp hmap
    obtain ⟨hsame, hkeyed⟩ := followupKeyed_change hx
    rw [LeaveState.StepClear, hx] at hclear
    have hc : s.CallClear r' f := hclear
    have hnone : (∀ location ∈ [SubscribableLocation.path, .query],
        s.registry.due r' location = []) → ∀ location k, k ≠ [] →
          k ∉ s.registry.due r' location := fun hdue location k _ hk => by
      have hall : location ∈ [SubscribableLocation.path, .query] := by cases location <;> simp
      rw [hdue location hall] at hk
      exact absurd hk List.not_mem_nil
    cases f with
    | nothing =>
        have hkept : r'.subscribables.Keyed := by
          rw [show r'.subscribables = s.registry.subscribables from hsame]
          exact h.keyed
        exact h.settle hkept (hnone hc.clear) hc.owed
    | subscribe => exact h.settle r'.keyed_updateSubscribables (hnone hc.clear) hc.owed
    | unsubscribe removed => exact h.unsubscribe (hkeyed removed rfl) hc a
  cases l with
  | call c a =>
      cases c with
      | unsubscribeAll =>
          obtain rfl := Option.some.inj hs
          exact h.unsubscribeAll hg a
      | subscribe sub => exact hcall (.subscribe sub) a hs hg
      | unsubscribe sub => exact hcall (.unsubscribe sub) a hs hg
      | subscribeSet ref => exact hcall (.subscribeSet ref) a hs hg
      | unsubscribeSet ref => exact hcall (.unsubscribeSet ref) a hs hg
      | allocSet options length subs => exact hcall (.allocSet options length subs) a hs hg
      | setAdd ref sub => exact hcall (.setAdd ref sub) a hs hg
      | setRemove ref sub => exact hcall (.setRemove ref sub) a hs hg
      | setUnion ref => exact hcall (.setUnion ref) a hs hg
      | setSubtract ref => exact hcall (.setSubtract ref) a hs hg
  | flush started =>
      simp only [step, Option.ite_none_left_eq_some, Option.some.injEq] at hs
      obtain ⟨_, rfl⟩ := hs
      exact h.postponedUnsubscribe started

lemma sound_init : leaveMachine.init.Sound where
  sent := fun q hq => absurd hq List.not_mem_nil
  aside := fun location => by
    cases location
    all_goals exact ⟨[], rfl, by simp, by simp, fun _ _ => Iff.rfl⟩
  notNeeded := fun _ _ hk => absurd hk List.not_mem_nil
  keyed := ⟨fun k v hv => by simp [leaveMachine, Registry.empty] at hv, by decide⟩

/-- A channel on its own. -/
def channelSubscription (name : String) : Subscription where
  ref := 0
  entity := ⟨.channel, ascii name⟩

/-- A context that is free, and one that is not. -/
def free : LeaveAnswer := ⟨true, true⟩
def busy : LeaveAnswer := ⟨false, true⟩

/-- Of three channels one is left at once, and the others after one another while the context is
    busy. -/
def threeChannelsRun : List Step :=
  [.call (.subscribe (channelSubscription "a")) free,
    .call (.subscribe (channelSubscription "b")) free,
    .call (.subscribe (channelSubscription "c")) free,
    .call (.unsubscribe (channelSubscription "a")) free,
    .call (.unsubscribe (channelSubscription "b")) busy,
    .call (.unsubscribe (channelSubscription "c")) busy, .flush true]

/-- A channel is left while the context is busy, and subscribed again before the context is
    free. -/
def subscribedAgainRun : List Step :=
  [.call (.subscribe (channelSubscription "a")) free,
    .call (.unsubscribe (channelSubscription "a")) busy,
    .call (.subscribe (channelSubscription "a")) free, .flush true]

end LeaveState

end PubNub
