import PubNubCore.Core.Types
import PubNubCore.Lib.ChainedHash

/-!
# Subscriptions, subscription sets and the subscribable list

The part of the subscribe event engine which knows *what* is subscribed: the arrays of active
subscriptions and subscription sets (`pbcc_subscribe_event_engine.c`), the public operations
that change them (`pubnub_subscribe_event_engine.c`) and the hash set through which they are
flattened into the two comma-separated lists of a subscribe request (`pbhash_set.c`).

Objects which the C code passes by pointer carry their identity: a subscription as the field
`ref`, a subscription set as its index in `Registry.sets`.  Allocation failures, reference
counts and locks are left out; everything that decides the lists is kept, including the number
of buckets of each hash set, since it decides the order of the lists.
-/

namespace PubNub

/-! ## `pbhash_set.c` -/

/-- A (signed) `char` as the `size_t` which it is converted to. -/
def charToSize (c : UInt8) : Nat :=
  if c.toNat < 128 then c.toNat else 2 ^ 64 - 256 + c.toNat

/-- `pbhash_set_element_hash_` for `PBHASH_SET_CHAR_CONTENT_TYPE`. -/
def pbhashSetElementHash (bucketLength : Nat) (element : Bytes) : Nat :=
  element.foldl (fun hash c => (hash * 31 + charToSize c) % 2 ^ 64 % bucketLength) 0

lemma pbhashSetElementHash_lt {n : Nat} (hn : 0 < n) (element : Bytes) :
    pbhashSetElementHash n element < n := by
  have key : ∀ (l : Bytes) (h : Nat), h < n →
      l.foldl (fun hash c => (hash * 31 + charToSize c) % 2 ^ 64 % n) h < n := by
    intro l
    induction l with
    | nil => exact fun h hh => hh
    | cons c l ih => exact fun h _ => ih _ (Nat.mod_lt _ hn)
  exact key element 0 hn

/-- `pbhash_set_t` with text elements. -/
abbrev PbhashSet (V : Type) := ChainedHash pbhashSetElementHash V

/-- `pbhash_set_alloc`. -/
abbrev pbhashSetAlloc (V : Type) (length : Nat) : PbhashSet V :=
  ChainedHash.alloc pbhashSetElementHash V length

/-- `pbhash_set_elements`. -/
def PbhashSet.elements {V : Type} (set : PbhashSet V) : List V := set.entries.map Prod.snd

/-! ## Entities, subscriptions and subscription sets -/

/-- `pubnub_entity_type`. -/
inductive EntityType
  | channel | channelGroup | channelMetadata | userMetadata
  deriving DecidableEq, Repr

/-- `pubnub_entity_t`. -/
structure Entity where
  type : EntityType
  id : Bytes
  deriving DecidableEq, Repr

/-- `pubnub_subscription_options_t`. -/
structure SubscriptionOptions where
  receivePresenceEvents : Bool := false
  deriving DecidableEq, Repr

/-- `pubnub_subscription_t`. -/
structure Subscription where
  ref : Nat
  entity : Entity
  options : SubscriptionOptions := {}
  deriving DecidableEq, Repr

/-- `pubnub_subscription_set_t`: subscriptions are stored under the id of their entity. -/
structure SubscriptionSet where
  options : SubscriptionOptions
  subscriptions : PbhashSet Subscription
  subscribed : Bool
  keyed : ∀ e ∈ subscriptions.entries, e.1 = e.2.entity.id

/-- `pubnub_subscribable_location`: channels travel in the path of the request, channel groups
    in its query. -/
inductive SubscribableLocation
  | path | query
  deriving DecidableEq, Repr

/-- `pubnub_subscribable_t`. -/
structure Subscribable where
  location : SubscribableLocation
  id : Bytes
  managedMemoryBlock : Bool
  deriving DecidableEq, Repr

/-- The suffix of presence channels. -/
def presenceSuffix : Bytes := ascii "-pnpres"

/-- `pubnub_subscribable_alloc_`. -/
def pubnubSubscribableAlloc (location : SubscribableLocation) (id : Bytes) (presence : Bool) :
    Subscribable where
  location := location
  id := if presence then id ++ presenceSuffix else id
  managedMemoryBlock := !presence

/-- `pubnub_subscribable_is_presence_`. -/
def Subscribable.isPresence (s : Subscribable) : Bool := !s.managedMemoryBlock

/-- `pubnub_subscribable_is_cg_`. -/
def Subscribable.isCg (s : Subscribable) : Bool := s.location == .query

/-- The location of an entity's subscribables. -/
def Entity.location (entity : Entity) : SubscribableLocation :=
  if entity.type = .channelGroup then .query else .path

/-- `pubnub_subscription_subscribables_`.  The options of the owning set, when there are any,
    are replaced by the subscription's own ones before they are looked at. -/
def pubnubSubscriptionSubscribables (sub : Subscription) (options : Option SubscriptionOptions) :
    PbhashSet Subscribable :=
  let opts : SubscriptionOptions := match options with
    | none => sub.options
    | some _ => { receivePresenceEvents := sub.options.receivePresenceEvents }
  let regular := pubnubSubscribableAlloc sub.entity.location sub.entity.id false
  let hash := pbhashSetAlloc Subscribable (if opts.receivePresenceEvents then 2 else 1)
  let hash := hash.insertNew regular.id regular
  if opts.receivePresenceEvents then
    let presence := pubnubSubscribableAlloc sub.entity.location sub.entity.id true
    hash.insertNew presence.id presence
  else hash

/-- `pubnub_subscription_set_subscribables_`. -/
def pubnubSubscriptionSetSubscribables (set : SubscriptionSet) : PbhashSet Subscribable :=
  let subs := set.subscriptions.elements
  let count := subs.length
  let length := (if count = 0 then 1 else count) *
    (if set.options.receivePresenceEvents then 2 else 1)
  subs.foldl (fun hash sub => hash.union (pubnubSubscriptionSubscribables sub (some set.options)))
    (pbhashSetAlloc Subscribable length)

/-! ## The registry of the event engine -/

/-- `SUBSCRIBABLE_LENGTH`. -/
def subscribableLength : Nat := 10

/-- `SUBSCRIPTIONS_LENGTH`. -/
def subscriptionsLength : Nat := 10

/-- The fields `subscriptions`, `subscription_sets` and `subscribables` of
    `struct pbcc_subscribe_ee`, with the subscription sets which exist. -/
structure Registry where
  subscriptions : List Subscription
  subscriptionSets : List Nat
  sets : List SubscriptionSet
  subscribables : PbhashSet Subscribable
  buckets_pos : 0 < subscribables.buckets.length

/-- The registry of a fresh engine. -/
def Registry.empty : Registry where
  subscriptions := []
  subscriptionSets := []
  sets := []
  subscribables := pbhashSetAlloc Subscribable subscribableLength
  buckets_pos := by decide

namespace Registry

/-- The loops of `pbcc_subscribe_ee_update_subscribables_`, each with its
    `pbcc_subscribe_ee_add_subscribables_`. -/
def collectSubscribables (r : Registry) : PbhashSet Subscribable :=
  let cleared := pbhashSetAlloc Subscribable r.subscribables.buckets.length
  let withSubs := r.subscriptions.foldl
    (fun acc sub => acc.union (pubnubSubscriptionSubscribables sub none)) cleared
  (r.subscriptionSets.filterMap fun ref => r.sets[ref]?).foldl
    (fun acc set => acc.union (pubnubSubscriptionSetSubscribables set)) withSubs

/-- Adding hash sets to a hash set keeps its number of buckets. -/
lemma length_foldl_union {ι : Type} (f : ι → PbhashSet Subscribable) (xs : List ι)
    (s : PbhashSet Subscribable) :
    (xs.foldl (fun acc x => acc.union (f x)) s).buckets.length = s.buckets.length := by
  induction xs generalizing s with
  | nil => rfl
  | cons x xs ih => rw [List.foldl_cons, ih, ChainedHash.length_union]

@[simp] lemma length_collectSubscribables (r : Registry) :
    r.collectSubscribables.buckets.length = r.subscribables.buckets.length := by
  simp only [collectSubscribables, length_foldl_union]
  exact List.length_replicate

/-- `pbcc_subscribe_ee_update_subscribables_`. -/
def updateSubscribables (r : Registry) : Registry :=
  { r with
    subscribables := r.collectSubscribables
    buckets_pos := by rw [length_collectSubscribables]; exact r.buckets_pos }

end Registry

/-- One `snprintf` of the list: a comma unless nothing was printed before. -/
def appendId (printed id : Bytes) : Bytes :=
  printed ++ (if printed.length > 0 then ascii "," else []) ++ id

/-- The text printed for a list of ids. -/
def joinIds (ids : List Bytes) : Bytes := ids.foldl appendId []

/-- The lists of channels and of channel groups that a hash set of subscribables gives. -/
structure SubscribableLists where
  channels : Bytes
  channelGroups : Bytes
  rslt : PubnubRes
  deriving DecidableEq, Repr

/-- `pbcc_subscribe_ee_subscribables_`. -/
def pbccSubscribeEeSubscribables (subscribables : PbhashSet Subscribable)
    (includePresence : Bool) : SubscribableLists :=
  let subs := subscribables.elements.filter fun sub => includePresence || !sub.isPresence
  let ch := (subs.filter fun sub => !sub.isCg).map Subscribable.id
  let cg := (subs.filter fun sub => sub.isCg).map Subscribable.id
  let chListLength := (ch.map List.length).sum
  let cgListLength := (cg.map List.length).sum
  { channels := joinIds ch
    channelGroups := joinIds cg
    rslt := if chListLength = 0 ∧ cgListLength = 0 then .invalidParameters else .ok }

/-! ## The operations of the public interface -/

/-- What an operation asks of the event engine once the registry has been changed. -/
inductive Followup
  | nothing
  | subscribe
  | unsubscribe (subscribables : PbhashSet Subscribable)

namespace Registry

/-- `pbcc_subscribe_ee_subscribe_with_subscription`: the change of the registry. -/
def subscribeWithSubscription (r : Registry) (sub : Subscription) : Registry × Followup :=
  ({ r with subscriptions := r.subscriptions ++ [sub] }, .subscribe)

/-- `pbcc_subscribe_ee_unsubscribe_with_subscription`: every occurrence goes. -/
def unsubscribeWithSubscription (r : Registry) (sub : Subscription) : Registry × Followup :=
  if sub ∈ r.subscriptions then
    ({ r with subscriptions := r.subscriptions.filter (· ≠ sub) },
      .unsubscribe (pubnubSubscriptionSubscribables sub none))
  else (r, .nothing)

/-- `set->subscribed = flag`. -/
def setSubscribed (r : Registry) (ref : Nat) (flag : Bool) : Registry :=
  { r with sets := r.sets.modify ref fun set => { set with subscribed := flag } }

/-- `pbcc_subscribe_ee_subscribe_with_subscription_set`. -/
def subscribeWithSubscriptionSet (r : Registry) (ref : Nat) : Registry × Followup :=
  ({ r with subscriptionSets := r.subscriptionSets ++ [ref] }, .subscribe)

/-- `pbcc_subscribe_ee_unsubscribe_with_subscription_set`. -/
def unsubscribeWithSubscriptionSet (r : Registry) (ref : Nat) (set : SubscriptionSet) :
    Registry × Followup :=
  if ref ∈ r.subscriptionSets then
    ({ r with subscriptionSets := r.subscriptionSets.filter (· ≠ ref) },
      .unsubscribe (pubnubSubscriptionSetSubscribables set))
  else (r, .nothing)

/-- `pbarray_remove_all` of both arrays in `pbcc_subscribe_ee_unsubscribe_all`. -/
def removeAll (r : Registry) : Registry := { r with subscriptions := [], subscriptionSets := [] }

end Registry

/-- The result of an operation on one subscription set. -/
structure SetChange where
  set : SubscriptionSet
  followup : Followup

/-- `pubnub_subscription_set_add_`. -/
def pubnubSubscriptionSetAdd (set : SubscriptionSet) (sub : Subscription) (notifyChange : Bool) :
    SetChange :=
  if set.subscriptions.contains sub.entity.id then ⟨set, .nothing⟩
  else
    ⟨{ set with
        subscriptions := set.subscriptions.insertNew sub.entity.id sub
        keyed := fun e he => by
          rcases ChainedHash.mem_entries_insertNew he with rfl | he
          · rfl
          · exact set.keyed e he },
      if set.subscribed && notifyChange then .subscribe else .nothing⟩

/-- `pubnub_subscription_set_remove_`. -/
def pubnubSubscriptionSetRemove (set : SubscriptionSet) (sub : Subscription)
    (notifyChange : Bool) : SetChange :=
  if set.subscriptions.contains sub.entity.id then
    ⟨{ set with
        subscriptions := set.subscriptions.erase sub.entity.id
        keyed := fun e he => set.keyed e (ChainedHash.mem_entries_erase he) },
      if set.subscribed && notifyChange then
        .unsubscribe (pubnubSubscriptionSubscribables sub (some set.options))
      else .nothing⟩
  else ⟨set, .nothing⟩

/-- The loop of `pubnub_subscription_set_union` and `pubnub_subscription_set_subtract`; only its
    last step may notify the engine. -/
def overElements (change : SubscriptionSet → Subscription → Bool → SetChange) :
    List Subscription → SubscriptionSet → SetChange
  | [], set => ⟨set, .nothing⟩
  | [sub], set => change set sub true
  | sub :: rest, set => overElements change rest (change set sub false).set

/-- `pubnub_subscription_set_union`: the loop runs over the elements of `set` itself, the other
    set is only locked. -/
def pubnubSubscriptionSetUnion (set : SubscriptionSet) : SetChange :=
  overElements pubnubSubscriptionSetAdd set.subscriptions.elements set

/-- `pubnub_subscription_set_subtract`: here, too, the loop runs over `set` itself. -/
def pubnubSubscriptionSetSubtract (set : SubscriptionSet) : SetChange :=
  overElements pubnubSubscriptionSetRemove set.subscriptions.elements set

/-- `subscription_set_alloc_` followed by the additions of
    `pubnub_subscription_set_alloc_with_entities` or `.._with_subscriptions`. -/
def pubnubSubscriptionSetAlloc (options : SubscriptionOptions) (length : Nat)
    (subs : List Subscription) : SubscriptionSet :=
  subs.foldl (fun set sub => (pubnubSubscriptionSetAdd set sub true).set)
    { options := options
      subscriptions := pbhashSetAlloc Subscription length
      subscribed := false
      keyed := fun e he => by
        rw [ChainedHash.entries_alloc] at he
        exact absurd he List.not_mem_nil }

namespace Registry

/-- Applies an operation on one subscription set. -/
def onSet (r : Registry) (ref : Nat) (change : SubscriptionSet → SetChange) :
    Registry × Followup :=
  match r.sets[ref]? with
  | none => (r, .nothing)
  | some set => ({ r with sets := r.sets.set ref (change set).set }, (change set).followup)

/-- A new subscription set, which is not subscribed yet. -/
def allocSet (r : Registry) (options : SubscriptionOptions) (length : Nat)
    (subs : List Subscription) : Registry :=
  { r with sets := r.sets ++ [pubnubSubscriptionSetAlloc options length subs] }

end Registry

/-! ## The lists of an event -/

/-- The lists which `pbcc_subscribe_ee_subscribe_` puts into the context of its event: no list
    at all when nothing is subscribed, and never an empty text. -/
structure EventLists where
  channels : Option Bytes
  channelGroups : Option Bytes
  deriving DecidableEq, Repr

/-- `NULL` for an empty text, as in `pbcc_subscription_changed_event_alloc`. -/
def nullIfEmpty (text : Bytes) : Option Bytes := if text = [] then none else some text

/-- The lists of the next `SUBSCRIPTION_CHANGED` or `SUBSCRIPTION_RESTORED` event. -/
def eventLists (subscribables : PbhashSet Subscribable) : EventLists :=
  let lists := pbccSubscribeEeSubscribables subscribables true
  if lists.rslt = .invalidParameters then ⟨none, none⟩
  else ⟨nullIfEmpty lists.channels, nullIfEmpty lists.channelGroups⟩

/-- The loop of `pbcc_subscribe_ee_unsubscribe_` which takes out of the unsubscribed
    subscribables those that are still subscribed. -/
def noLongerSubscribed (subscribed unsubscribed : PbhashSet Subscribable) :
    PbhashSet Subscribable :=
  unsubscribed.elements.foldl
    (fun acc sub => if subscribed.contains sub.id then acc.erase sub.id else acc) unsubscribed

end PubNub
