import PubNubCore.Listeners.Names
import Mathlib.Data.List.TakeWhile

/-!
# Which listeners are called

In a run in which no call goes wrong (`ListenerClear`) the lists are what is registered, and a
message is told to the registered listeners that match it (`listeners_called_as_registered`).  A call
goes wrong where a listener is freed while it is in a list, where a failed registration takes away
more than it has added, where a name is freed twice, and where a message arrives before there is a
hash set or while a listener of another type is registered with the context.
-/

namespace PubNub

open PbccEventListener

namespace PbccEventListener

variable (s : PbccEventListener)

/-- The names that get a listener before one fails. -/
def granted (names : List Bytes) (memory : ScopedAllocation) : List Bytes :=
  names.takeWhile fun name => !s.fails memory.name name

/-- The name that fails, and those behind it. -/
def refused (names : List Bytes) (memory : ScopedAllocation) : List Bytes :=
  names.dropWhile fun name => !s.fails memory.name name

/-- A registration with names goes well: either all names get it, or the first one fails and its name
    has not been handed over, or the second or the third one fails and neither it nor a name behind it
    has a list, while those before it have lists without anything equal. -/
def AddClear (r : Registration) (names : List Bytes) (memory : ScopedAllocation) : Prop :=
  match s.refused names memory with
  | [] => names = [] ∨ memory.listener ≠ .noCounter
  | name :: rest =>
      if s.granted names memory = [] then
        (s.array (some name)).isSome = true ∨ memory.name name = .noObjectListener
      else
        (s.granted names memory).length ≤ 2 ∧ memory.listener ≠ .noCounter ∧
        memory.name name = .noObjectListener ∧
        (∀ c ∈ s.granted names memory, (s.array (some c)).isSome = true ∧
          ∀ l ∈ s.listed (some c), s.registration l ≠ some r) ∧
        ∀ c ∈ name :: rest, s.array (some c) = none

instance (r : Registration) (names : List Bytes) (memory : ScopedAllocation) :
    Decidable (s.AddClear r names memory) :=
  match h : s.refused names memory with
  | [] => decidable_of_iff (names = [] ∨ memory.listener ≠ .noCounter) (by rw [AddClear, h])
  | name :: rest => decidable_of_iff
      (if s.granted names memory = [] then
        (s.array (some name)).isSome = true ∨ memory.name name = .noObjectListener
      else
        (s.granted names memory).length ≤ 2 ∧ memory.listener ≠ .noCounter ∧
        memory.name name = .noObjectListener ∧
        (∀ c ∈ s.granted names memory, (s.array (some c)).isSome = true ∧
          ∀ l ∈ s.listed (some c), s.registration l ≠ some r) ∧
        ∀ c ∈ name :: rest, s.array (some c) = none) (by rw [AddClear, h])

end PbccEventListener

/-- A call does not go wrong. -/
def ListenerClear (s : ListenerRun) : ListenerCall → Prop
  | .addMessageListener _ cb _ memory => memory.listener = .noCounter →
      cb = none ∨ (s.eventListener.globalEvents.isNone = true ∧ memory.array = false) ∨
        memory.entry = false
  | .removeMessageListener _ _ _ _ => True
  | .addSubscriptionListener type names subscription cb userData memory => cb ≠ none →
      s.eventListener.listeners.isSome = true ∨ memory.set = true → memory.listener ≠ .noListener →
      s.eventListener.AddClear ⟨type, some subscription, cb.getD 0, userData⟩ names.names memory
  | .removeSubscriptionListener type names subscription cb userData memory => cb ≠ none →
      memory ≠ .noListener →
      s.eventListener.ReleasedInTime ⟨type, some subscription, cb.getD 0, userData⟩ names.names
  | .emitMessage _ message => s.eventListener.listeners.isSome = true ∧
      ∀ r ∈ s.registered none, r.type = pbccMessageTypeToListenerType message.messageType

instance (s : ListenerRun) : ∀ call, Decidable (ListenerClear s call)
  | .addMessageListener _ cb _ memory => inferInstanceAs (Decidable (memory.listener = .noCounter →
      cb = none ∨ (s.eventListener.globalEvents.isNone = true ∧ memory.array = false) ∨
        memory.entry = false))
  | .removeMessageListener _ _ _ _ => inferInstanceAs (Decidable True)
  | .addSubscriptionListener type names subscription cb userData memory =>
      inferInstanceAs (Decidable (cb ≠ none →
        s.eventListener.listeners.isSome = true ∨ memory.set = true →
        memory.listener ≠ .noListener → s.eventListener.AddClear
          ⟨type, some subscription, cb.getD 0, userData⟩ names.names memory))
  | .removeSubscriptionListener type names subscription cb userData memory =>
      inferInstanceAs (Decidable (cb ≠ none → memory ≠ .noListener →
        s.eventListener.ReleasedInTime ⟨type, some subscription, cb.getD 0, userData⟩ names.names))
  | .emitMessage _ message => inferInstanceAs (Decidable (s.eventListener.listeners.isSome = true ∧
      ∀ r ∈ s.registered none, r.type = pbccMessageTypeToListenerType message.messageType))

variable {s s' : PbccEventListener} {R : Registrations} {r : Registration} {names : List Bytes}
  {l : Nat}

/-! ## The heap around the lists -/

/-- The listener that comes next is in no list. -/
lemma Represents.length_not_mem (h : Represents s R) (place : Option Bytes) :
    s.objects.length ∉ s.listed place := fun hl => Nat.lt_irrefl _ (h.lt_length hl)

/-- What happens to listeners that are in no list does not matter. -/
lemma Represents.objects (h : Represents s R) (hlisted : ∀ place, s'.listed place = s.listed place)
    (hlength : ∀ set, s'.listeners = some set → set.buckets.length = listenersLength)
    (hsame : ∀ place, ∀ l ∈ s.listed place, s'.objects.read l = s.objects.read l) :
    Represents s' R :=
  h.congr hlisted hlength fun place l hl => registrationAt_congr (hsame place l hl)

lemma listed_setObjects (objects : Heap PbccListener) (place : Option Bytes) :
    ({ s with objects := objects } : PbccEventListener).listed place = s.listed place := by
  cases place <;> rfl

lemma Represents.alloc (h : Represents s R) (x : PbccListener) :
    Represents { s with objects := s.objects.alloc x } R := by
  refine h.objects (listed_setObjects _) h.length fun place l hl => ?_
  have hlt := h.lt_length hl
  rw [Heap.read_alloc, if_neg (by omega)]

lemma Represents.free (h : Represents s R) {x : PbccListener} (hread : s.objects.read l = some x)
    (hl : ∀ place, l ∉ s.listed place) :
    Represents { s with objects := s.objects.write l none } R := by
  refine h.objects (listed_setObjects _) h.length fun place j hj => ?_
  rw [Heap.read_write hread, if_neg]
  rintro rfl
  exact hl place hj

/-- A listener with one reference, or without a counter, is freed. -/
lemma pbccListenerFree_of_read {objects : Heap PbccListener} {counter : Option Nat}
    (hcounter : counter = none ∨ counter = some 1) (hread : objects.read l = some ⟨r, counter⟩) :
    pbccListenerFree objects l = some (objects.write l none) := by
  rcases hcounter with rfl | rfl
  · exact pbccListenerFree_noCounter hread
  · exact pbccListenerFree_one hread

/-- A new listener is in no list. -/
lemma Represents.pbccListenerAlloc (h : Represents s R) (r : Registration)
    {memory : ListenerAllocation} (hmemory : memory ≠ .noListener) :
    ∃ objects l counter, pbccListenerAlloc s.objects r memory = some (objects, l) ∧
      objects.read l = some ⟨r, counter⟩ ∧
      (counter = none ∧ memory = .noCounter ∨ counter = some 1 ∧ memory = .enough) ∧
      Represents { s with objects := objects } R ∧ (∀ place, l ∉ s.listed place) ∧
      ∀ j, j ≠ l → objects.read j = s.objects.read j := by
  have halloc : ∀ counter : Option Nat, (s.objects.alloc ⟨r, counter⟩).read s.objects.length =
      some ⟨r, counter⟩ := by
    intro counter
    rw [Heap.read_alloc, if_pos rfl]
  have hother : ∀ (counter : Option Nat) (j : Nat), j ≠ s.objects.length →
      (s.objects.alloc ⟨r, counter⟩).read j = s.objects.read j := by
    intro counter j hj
    rw [Heap.read_alloc, if_neg hj]
  cases memory with
  | enough => exact ⟨_, _, some 1, rfl, halloc _, .inr ⟨rfl, rfl⟩, h.alloc _, h.length_not_mem,
      hother _⟩
  | noListener => exact absurd rfl hmemory
  | noCounter => exact ⟨_, _, none, rfl, halloc _, .inl ⟨rfl, rfl⟩, h.alloc _, h.length_not_mem,
      hother _⟩

/-! ## Listeners of the context -/

/-- The list of the context is allocated. -/
lemma Represents.setGlobalEvents (h : Represents s R) {events : List Nat} {enough : Bool}
    (hevents : pbccInitializeArray s.globalEvents enough = some events) :
    Represents { s with globalEvents := some events } R ∧ s.listed none = events := by
  have hlisted : s.listed none = events := by
    rw [PbccEventListener.listed, array]
    cases hs : s.globalEvents with
    | some ls =>
        rw [hs] at hevents
        exact Option.some.inj hevents
    | none =>
        rw [hs] at hevents
        cases enough with
        | true => exact Option.some.inj hevents
        | false => cases hevents
  refine ⟨h.objects (fun place => ?_) h.length fun _ _ _ => rfl, hlisted⟩
  cases place with
  | none => exact hlisted.symm
  | some name => rfl

lemma Represents.addMessageListener (h : Represents s R) {type : PubnubSubscribeListenerType}
    {cb : Option Nat} {userData : Nat} {memory : GlobalAllocation}
    (hc : memory.listener = .noCounter → cb = none ∨
      (s.globalEvents.isNone = true ∧ memory.array = false) ∨ memory.entry = false) :
    ∃ s' rslt, s.addMessageListener type cb userData memory = some (s', rslt) ∧
      Represents s' (if rslt = .ok then R.add [none] ⟨type, none, cb.getD 0, userData⟩ else R) := by
  cases cb with
  | none => exact ⟨s, .invalidParameters, rfl, h⟩
  | some cb =>
      rw [PbccEventListener.addMessageListener]
      cases hevents : pbccInitializeArray s.globalEvents memory.array with
      | none => exact ⟨s, .outOfMemory, rfl, h⟩
      | some events =>
          obtain ⟨h₀, hlisted⟩ := h.setGlobalEvents hevents
          simp only
          by_cases hlistener : memory.listener = .noListener
          · rw [hlistener]
            exact ⟨_, .outOfMemory, rfl, h₀⟩
          obtain ⟨objects, l, counter, halloc, hread, hcounter, h₁, hfresh, -⟩ :=
            h₀.pbccListenerAlloc ⟨type, none, cb, userData⟩ hlistener
          rw [halloc]
          simp only [Option.bind_eq_bind]
          cases hentry : memory.entry with
          | false =>
              rw [pbccAddListener_noEntry]
              simp only [Option.bind_some]
              rw [if_neg (by decide),
                pbccListenerFree_of_read (hcounter.imp And.left And.left) hread]
              refine ⟨_, .outOfMemory, rfl, h₁.free hread fun place => ?_⟩
              rw [listed_setObjects]
              exact hfresh place
          | true =>
              rcases hcounter with ⟨-, hnone⟩ | ⟨rfl, -⟩
              · rcases hc hnone with hcb | ⟨hglobal, harray⟩ | hfalse
                · cases hcb
                · rw [Option.isNone_iff_eq_none] at hglobal
                  rw [hglobal, harray] at hevents
                  cases hevents
                · rw [hentry] at hfalse
                  cases hfalse
              · rw [pbccAddListener_entry hread]
                refine ⟨_, .ok, rfl, ?_⟩
                rw [if_pos rfl]
                refine h₁.add (l := l) (fun place => ?_) h.length (fun place j hj => ?_) ?_ ?_ ?_
                · cases place <;> rfl
                · refine registrationAt_congr ?_
                  rw [Heap.read_write hread, if_neg]
                  rintro rfl
                  rw [listed_setObjects] at hj
                  exact hfresh place hj
                · refine registrationAt_eq_some.mpr ⟨1 + 1, ?_⟩
                  rw [Heap.read_write hread, if_pos rfl]
                  rfl
                · rw [listed_setObjects]
                  exact hfresh none
                · simp

lemma Represents.removeMessageListener (h : Represents s R) (type : PubnubSubscribeListenerType)
    (cb : Option Nat) (userData : Nat) (memory : ListenerAllocation) :
    ∃ s' rslt, s.removeMessageListener type cb userData memory = some (s', rslt) ∧
      Represents s'
        (if rslt = .ok then R.remove [none] ⟨type, none, cb.getD 0, userData⟩ else R) := by
  cases cb with
  | none => exact ⟨s, .invalidParameters, rfl, h⟩
  | some cb =>
      cases hevents : s.globalEvents with
      | none =>
          refine ⟨s, .ok, by simp only [PbccEventListener.removeMessageListener, hevents], ?_⟩
          have hnil : R none = [] := by
            have hmap := h.listed none
            simpa [PbccEventListener.listed, array, hevents] using hmap
          rw [if_pos rfl, Registrations.remove_eq_self (by simp [hnil])]
          exact h
      | some events =>
          simp only [PbccEventListener.removeMessageListener, hevents]
          by_cases hmemory : memory = .noListener
          · rw [hmemory]
            exact ⟨s, .outOfMemory, rfl, h⟩
          obtain ⟨objects, l, counter, halloc, hread, hcounter, h₁, hfresh, -⟩ :=
            h.pbccListenerAlloc ⟨type, none, cb, userData⟩ hmemory
          rw [halloc]
          simp only [Option.bind_eq_bind]
          have hlisted : ({ s with objects := objects } : PbccEventListener).listed none =
              events := by
            rw [listed_setObjects, PbccEventListener.listed, array, hevents, Option.getD_some]
          have hl : l ∉ events := by
            rw [← hlisted, listed_setObjects]
            exact hfresh none
          obtain ⟨objects', hremove, hreleased⟩ := pbccRemoveListener_eq
            (hlisted ▸ h₁.nodup none) (fun j hj => h₁.isSome (hlisted.symm ▸ hj))
            (fun _ => ⟨_, hread, rfl⟩) (fun hj => hl (List.dropLast_subset _ hj))
          have h₂ : Represents (PbccEventListener.mk objects'
              (some (events.filter fun j => registrationAt objects j ≠
                some ⟨type, none, cb, userData⟩)) s.listeners)
              (R.remove [none] ⟨type, none, cb, userData⟩) := by
            refine h₁.release (hlisted ▸ hreleased) (fun place => ?_) h.length ?_
            · cases place with
              | none =>
                  rw [if_pos rfl, hlisted]
                  rfl
              | some name => rfl
            · intro j hj count _ place hplace hmem
              cases place with
              | none => exact absurd rfl hplace
              | some name => exact absurd hmem (h₁.place_eq_none hj)
          have hread' := (hreleased.read_of_not_mem hl).trans hread
          rw [hremove]
          simp only [Option.bind_some]
          rw [pbccListenerFree_of_read (hcounter.imp And.left And.left) hread']
          refine ⟨_, .ok, rfl, ?_⟩
          rw [if_pos rfl]
          refine h₂.free hread' fun place hj => ?_
          cases place with
          | none => exact hl (List.mem_filter.mp hj).1
          | some name => exact hfresh (some name) hj

/-! ## Listeners of subscription objects -/

/-- The hash set is allocated. -/
lemma Represents.initializeListeners (h : Represents s R) {set : PbhashSet (List Nat)}
    {enough : Bool} (hset : s.initializeListeners enough = some set) :
    Represents { s with listeners := some set } R ∧
      ∀ place, ({ s with listeners := some set } : PbccEventListener).array place =
        s.array place := by
  rw [PbccEventListener.initializeListeners] at hset
  have hfound : set.buckets.length = listenersLength ∧
      ∀ place, ({ s with listeners := some set } : PbccEventListener).array place =
        s.array place := by
    cases hs : s.listeners with
    | some old =>
        rw [hs] at hset
        cases hset
        refine ⟨h.length _ hs, fun place => ?_⟩
        cases place with
        | none => rfl
        | some name => simp [array, hs]
    | none =>
        rw [hs] at hset
        cases enough with
        | false => cases hset
        | true =>
            cases hset
            refine ⟨List.length_replicate, fun place => ?_⟩
            cases place with
            | none => rfl
            | some name => simp [array, hs]
  obtain ⟨hlength, harray⟩ := hfound
  refine ⟨h.objects (fun place => ?_) ?_ fun _ _ _ => rfl, harray⟩
  · rw [PbccEventListener.listed, harray, PbccEventListener.listed]
  · rintro _ ⟨⟩
    exact hlength

lemma fails_congr {memory : Bytes → NameAllocation} {name : Bytes}
    (h : s'.array (some name) = s.array (some name)) :
    s'.fails memory name = s.fails memory name := by
  rw [fails, h, fails]

/-- The first name that fails has a list and no entry, or no list. -/
lemma fails_refused {memory : ScopedAllocation} {name : Bytes} {rest : List Bytes}
    (h : s.refused names memory = name :: rest) : s.fails memory.name name = true := by
  have hhead := List.head?_dropWhile_not (fun name => !s.fails memory.name name) names
  rw [show names.dropWhile _ = name :: rest from h] at hhead
  simpa using hhead

lemma granted_append_refused (s : PbccEventListener) (names : List Bytes)
    (memory : ScopedAllocation) : s.granted names memory ++ s.refused names memory = names :=
  List.takeWhile_append_dropWhile

lemma fails_granted {memory : ScopedAllocation} {name : Bytes}
    (h : name ∈ s.granted names memory) : s.fails memory.name name = false := by
  have hnot := List.mem_takeWhile_imp h
  simpa using hnot

lemma array_setObjects (objects : Heap PbccListener) (place : Option Bytes) :
    ({ s with objects := objects } : PbccEventListener).array place = s.array place := by
  cases place <;> rfl

/-- All names get the listener. -/
lemma Represents.addToNames_refused_nil (h : Represents s R) (hset : s.listeners.isSome)
    {memory : ScopedAllocation} {counter : Option Nat} (hnodup : names.Nodup)
    (hobject : r.subscriptionObject ≠ none) (hread : s.objects.read l = some ⟨r, counter⟩)
    (hl : ∀ place, l ∉ s.listed place) (hfails : ∀ name ∈ names, s.fails memory.name name = false)
    (hcounter : names = [] ∨ counter = some 1) :
    ∃ s' b t, addToNames l memory.name names ⟨s, .ok, false, false⟩ = some ⟨s', .ok, b, t⟩ ∧
      Represents s' (R.add (names.map some) r) := by
  rcases hcounter with rfl | rfl
  · refine ⟨s, false, false, rfl, ?_⟩
    rw [List.map_nil, Registrations.add_nil]
    exact h
  · obtain ⟨s', t', heq, h', -⟩ := addToNames_append hobject [] names s R 1 false false hnodup h
      hset hfails hread fun name _ => hl (some name)
    rw [List.append_nil] at heq
    exact ⟨s', _, t', heq, h'⟩

/-- The first name fails, and is still the caller's. -/
lemma Represents.addObjectListener_fails (h : Represents s R) (hset : s.listeners.isSome)
    {memory : Bytes → NameAllocation} {name : Bytes} (hfails : s.fails memory name = true)
    (hc : (s.array (some name)).isSome = true ∨ memory name = .noObjectListener) :
    ∃ s', s.addObjectListener name l (memory name) = some (s', .outOfMemory, false) ∧
      Represents s' R ∧ s'.objects = s.objects ∧ ∀ place, s'.array place = s.array place := by
  obtain ⟨set, hset⟩ := Option.isSome_iff_exists.mp hset
  rw [fails] at hfails
  cases harray : s.array (some name) with
  | some ls =>
      rw [harray] at hfails
      exact h.addObjectListener_noEntry hset (by rw [harray]; rfl) (by simpa using hfails)
  | none =>
      rw [harray] at hc
      have hmemory : memory name = .noObjectListener := by simpa using hc
      have hfind : set.find? name = none := by simpa [array, hset] using harray
      refine ⟨s, ?_, h, rfl, fun _ => rfl⟩
      rw [hmemory, PbccEventListener.addObjectListener, hset]
      simp only [Option.bind_eq_bind, Option.bind_some, hfind]

/-- A name fails after one or two have got the listener, which is taken back. -/
lemma Represents.addToNames_refused_cons (h : Represents s R) (hset : s.listeners.isSome)
    {memory : ScopedAllocation} {added rest : List Bytes} {name : Bytes}
    (hnodup : (added ++ name :: rest).Nodup) (hobject : r.subscriptionObject ≠ none)
    (hread : s.objects.read l = some ⟨r, some 1⟩) (hl : ∀ place, l ∉ s.listed place)
    (hfails : ∀ name ∈ added, s.fails memory.name name = false) (hne : added ≠ [])
    (hlength : added.length ≤ 2) (hmemory : memory.name name = .noObjectListener)
    (harray : ∀ c ∈ added, (s.array (some c)).isSome = true ∧
      ∀ l ∈ s.listed (some c), s.registration l ≠ some r)
    (hnone : ∀ c ∈ name :: rest, s.array (some c) = none) :
    ∃ s₁ s', addToNames l memory.name (added ++ name :: rest) ⟨s, .ok, false, false⟩ =
        some ⟨s₁, .outOfMemory, true, false⟩ ∧
      removeFromNames l (added ++ name :: rest) s₁ = some s' ∧ Represents s' R := by
  have hadded := List.Nodup.of_append_left hnodup
  have hR : ∀ q ∈ added.map some, r ∉ R q := by
    intro q hq hr
    obtain ⟨c, hc, rfl⟩ := List.mem_map.mp hq
    obtain ⟨j, hj, hreg⟩ := h.exists_listed hr
    exact (harray c hc).2 j hj hreg
  obtain ⟨s₁, t₁, heq, h₁, hset₁, hread₁, harray₁, hlisted₁, ht⟩ := addToNames_append hobject
    (name :: rest) added s R 1 false false hadded h hset hfails hread fun c _ => hl (some c)
  obtain rfl := ht fun c hc => (harray c hc).1
  have hb : (false || !added.isEmpty) = true := by
    cases added with
    | nil => exact absurd rfl hne
    | cons c added => rfl
  rw [hb] at heq
  have hrest : ∀ c ∈ name :: rest, (some c : Option Bytes) ∉ added.map some := by
    intro c hc hmem
    obtain ⟨d, hd, heq⟩ := List.mem_map.mp hmem
    rw [Option.some.injEq] at heq
    exact List.disjoint_of_nodup_append hnodup (heq ▸ hd) hc
  have hnone₁ : ∀ c ∈ name :: rest, s₁.array (some c) = none := by
    intro c hc
    rw [harray₁ _ (hrest c hc)]
    exact hnone c hc
  have hrefuse : s₁.addObjectListener name l (memory.name name) =
      some (s₁, .outOfMemory, false) := by
    obtain ⟨set, hs⟩ := Option.isSome_iff_exists.mp hset₁
    have hfind : set.find? name = none := by
      simpa [array, hs] using hnone₁ name List.mem_cons_self
    rw [hmemory, PbccEventListener.addObjectListener, hs]
    simp only [Option.bind_eq_bind, Option.bind_some, hfind]
  obtain ⟨s', hremove, h', hset', harray', -⟩ := removeFromNames_added added s₁ _ (1 + added.length)
    hadded h₁ hset₁ (fun _ => ⟨hread₁, by omega⟩) (fun c hc => ⟨_, hlisted₁ c hc⟩)
    (by
      intro c hc j hj hreg
      rw [hlisted₁ c hc] at hj
      rcases List.mem_append.mp hj with hj | hj
      · -- what was in the list before is registered as something else
        have hmap : (s.listed (some c)).map s₁.registration ++ [s₁.registration l] =
            (R (some c)).map some ++ [some r] := by
          have hcmem : (some c : Option Bytes) ∈ added.map some := List.mem_map_of_mem hc
          have := h₁.listed (some c)
          rw [hlisted₁ c hc, Registrations.add, if_pos hcmem] at this
          simpa using this
        have hmem : s₁.registration j ∈ (s.listed (some c)).map s₁.registration :=
          List.mem_map_of_mem hj
        rw [(List.append_inj' hmap rfl).1, hreg] at hmem
        obtain ⟨r', hr', heq'⟩ := List.mem_map.mp hmem
        cases heq'
        exact absurd hr' (hR (some c) (List.mem_map_of_mem hc))
      · exact List.mem_singleton.mp hj)
    (by
      intro place hplace
      rw [PbccEventListener.listed, harray₁ place hplace]
      exact hl place)
  rw [Registrations.remove_add hR] at h'
  refine ⟨s₁, s', ?_, ?_, h'⟩
  · rw [heq, addToNames, hrefuse]
    rfl
  · rw [removeFromNames_append, hremove, Option.bind_some]
    refine removeFromNames_of_none _ s' hset' fun c hc => ?_
    rw [harray' _ (hrest c hc)]
    exact hnone₁ c hc

lemma Represents.manageListenerAdd (h : Represents s R) {type : PubnubSubscribeListenerType}
    {subscription : Nat} {cb : Option Nat} {userData : Nat} {memory : ScopedAllocation}
    (hnodup : names.Nodup)
    (hc : cb ≠ none → s.listeners.isSome = true ∨ memory.set = true →
      memory.listener ≠ .noListener →
      s.AddClear ⟨type, some subscription, cb.getD 0, userData⟩ names memory) :
    ∃ s' rslt, s.manageListenerAdd type names subscription cb userData memory = some (s', rslt) ∧
      Represents s' (if rslt = .ok then
        R.add (names.map some) ⟨type, some subscription, cb.getD 0, userData⟩ else R) := by
  rw [PbccEventListener.manageListenerAdd]
  cases cb with
  | none => exact ⟨s, .invalidParameters, rfl, h⟩
  | some cb =>
      rw [PbccEventListener.addSubscriptionObjectListener]
      cases hset : s.initializeListeners memory.set with
      | none => exact ⟨s, .outOfMemory, rfl, h⟩
      | some set =>
          obtain ⟨h₀, harray₀⟩ := h.initializeListeners hset
          simp only
          by_cases hlistener : memory.listener = .noListener
          · rw [hlistener]
            exact ⟨_, .outOfMemory, rfl, h₀⟩
          have hset' : s.listeners.isSome = true ∨ memory.set = true := by
            rw [PbccEventListener.initializeListeners] at hset
            cases hs : s.listeners with
            | some old => exact .inl rfl
            | none =>
                rw [hs] at hset
                cases hm : memory.set with
                | true => exact .inr rfl
                | false =>
                    rw [hm] at hset
                    cases hset
          have hclear := hc (by simp) hset' hlistener
          obtain ⟨objects, l, counter, halloc, hread, hcounter, h₁, hfresh, hother⟩ :=
            h₀.pbccListenerAlloc ⟨type, some subscription, cb, userData⟩ hlistener
          have harray₁ : ∀ place, (PbccEventListener.mk objects s.globalEvents
              (some set)).array place = s.array place := by
            intro place
            rw [← harray₀ place]
            cases place <;> rfl
          have hlisted₁ : ∀ place, (PbccEventListener.mk objects s.globalEvents
              (some set)).listed place = s.listed place := by
            intro place
            rw [PbccEventListener.listed, harray₁, PbccEventListener.listed]
          have hl₁ : ∀ place, l ∉ (PbccEventListener.mk objects s.globalEvents
              (some set)).listed place := by
            intro place
            rw [hlisted₁, PbccEventListener.listed, ← harray₀ place]
            exact hfresh place
          rw [halloc]
          simp only [Option.bind_eq_bind]
          rw [AddClear] at hclear
          have hnames := granted_append_refused s names memory
          have hgranted : ∀ name ∈ s.granted names memory, (PbccEventListener.mk objects
              s.globalEvents (some set)).fails memory.name name = false := by
            intro name hname
            rw [fails_congr (harray₁ _)]
            exact fails_granted hname
          cases hrefused : s.refused names memory with
          | nil =>
              rw [hrefused] at hclear hnames
              rw [List.append_nil] at hnames
              rw [hnames] at hgranted
              obtain ⟨s', b, t, heq, h'⟩ := h₁.addToNames_refused_nil rfl hnodup (by simp) hread hl₁
                hgranted (hclear.imp id fun hm => by
                  rcases hcounter with ⟨-, hnone⟩ | ⟨hone, -⟩
                  · exact absurd hnone hm
                  · exact hone)
              rw [heq]
              simp only [Option.bind_some]
              rw [if_neg (by simp), if_neg (by simp)]
              exact ⟨s', .ok, rfl, h'⟩
          | cons name rest =>
              rw [hrefused] at hclear hnames
              simp only at hclear
              have hfailsName := fails_refused hrefused
              by_cases hnil : s.granted names memory = []
              · rw [if_pos hnil] at hclear
                rw [hnil, List.nil_append] at hnames
                obtain ⟨s', hadd, h', hobjects, harray'⟩ := h₁.addObjectListener_fails (l := l) rfl
                  ((fails_congr (harray₁ _)).trans hfailsName)
                  (hclear.imp (fun hs => by rw [harray₁]; exact hs) id)
                have hread' : s'.objects.read l =
                    some ⟨⟨type, some subscription, cb, userData⟩, counter⟩ := by
                  rw [hobjects, hread]
                rw [← hnames, addToNames]
                simp only [Option.bind_eq_bind]
                rw [hadd]
                simp only [Option.bind_some]
                rw [if_neg (by decide)]
                simp only [Option.bind_some]
                rw [if_neg (by simp), if_pos (by simp)]
                rw [pbccListenerFree_of_read (hcounter.imp And.left And.left) hread']
                refine ⟨_, .outOfMemory, rfl, h'.free hread' fun place => ?_⟩
                rw [PbccEventListener.listed, harray']
                exact hl₁ place
              · rw [if_neg hnil] at hclear
                obtain ⟨hlength, hm, hmemory, hlists, hnone⟩ := hclear
                have hone : counter = some 1 := by
                  rcases hcounter with ⟨-, hnone⟩ | ⟨hone, -⟩
                  · exact absurd hnone hm
                  · exact hone
                subst hone
                obtain ⟨s₁, s', hadd, hremove, h'⟩ := h₁.addToNames_refused_cons rfl
                  (hnames.symm ▸ hnodup) (by simp) hread hl₁ hgranted hnil hlength hmemory
                  (fun c hc => by
                    rw [harray₁, hlisted₁]
                    refine ⟨(hlists c hc).1, fun j hj => ?_⟩
                    have hsame : registration (PbccEventListener.mk objects s.globalEvents
                        (some set)) j = s.registration j := by
                      refine registrationAt_congr (hother j ?_)
                      rintro rfl
                      exact hl₁ (some c) (by rw [hlisted₁]; exact hj)
                    rw [hsame]
                    exact (hlists c hc).2 j hj)
                  (fun c hc => by
                    rw [harray₁]
                    exact hnone c hc)
                rw [hnames] at hadd hremove
                rw [hadd]
                simp only [Option.bind_some]
                rw [if_pos (by simp), hremove]
                simp only [Option.bind_some]
                rw [if_neg (by simp)]
                exact ⟨s', .outOfMemory, rfl, h'⟩

/-- A listener that is in no list takes nothing away from those that are. -/
lemma PbccEventListener.ReleasedInTime.setObjects (hr : s.ReleasedInTime r names)
    {objects : Heap PbccListener} (hl : ∀ place, l ∉ s.listed place)
    (hother : ∀ j, j ≠ l → objects.read j = s.objects.read j) :
    ({ s with objects := objects } : PbccEventListener).ReleasedInTime r names := by
  intro j _ hreg
  have hlistings : ({ s with objects := objects } : PbccEventListener).listings names j =
      s.listings names j := by
    refine List.countP_congr fun c _ => ?_
    rw [listed_setObjects]
  rw [OutlivesRemoval, hlistings]
  by_cases hj : j = l
  · subst hj
    have hzero : s.listings names j = 0 := by
      refine List.countP_eq_zero.mpr fun c _ => ?_
      simpa using hl (some c)
    rw [hzero]
    exact ⟨by simp, by simp⟩
  · have hold : s.registration j = some r := (registrationAt_congr (hother j hj)).symm.trans hreg
    obtain ⟨count, hread⟩ := registrationAt_eq_some.mp hold
    have hreferences : ({ s with objects := objects } : PbccEventListener).references j =
        s.references j := by
      rw [references, countAt, hother j hj]
      rfl
    obtain ⟨hagain, helsewhere⟩ := hr j (Heap.lt_of_read hread) hold
    rw [hreferences]
    refine ⟨hagain, fun hpos hplace => helsewhere hpos ?_⟩
    obtain ⟨c, hkey, hc, hmem⟩ := hplace
    rw [listed_setObjects] at hmem
    exact ⟨c, hkey, hc, hmem⟩

lemma Represents.removeSubscriptionObjectListener (h : Represents s R)
    {type : PubnubSubscribeListenerType} {subscription : Nat} {cb : Option Nat} {userData : Nat}
    {memory : ListenerAllocation} (hnodup : names.Nodup)
    (hc : cb ≠ none → memory ≠ .noListener →
      s.ReleasedInTime ⟨type, some subscription, cb.getD 0, userData⟩ names) :
    ∃ s' rslt, s.removeSubscriptionObjectListener type names subscription cb userData memory =
        some (s', rslt) ∧
      Represents s' (if rslt = .ok then
        R.remove (names.map some) ⟨type, some subscription, cb.getD 0, userData⟩ else R) := by
  cases cb with
  | none => exact ⟨s, .invalidParameters, rfl, h⟩
  | some cb =>
      cases hset : s.listeners with
      | none =>
          refine ⟨s, .ok, by
            simp only [PbccEventListener.removeSubscriptionObjectListener, hset], ?_⟩
          rw [if_pos rfl, Registrations.remove_eq_self]
          · exact h
          · intro q hq hr
            obtain ⟨c, -, rfl⟩ := List.mem_map.mp hq
            obtain ⟨j, hj, -⟩ := h.exists_listed hr
            simp [PbccEventListener.listed, array, hset] at hj
      | some set =>
          simp only [PbccEventListener.removeSubscriptionObjectListener, hset]
          by_cases hmemory : memory = .noListener
          · rw [hmemory]
            exact ⟨s, .outOfMemory, rfl, h⟩
          obtain ⟨objects, l, counter, halloc, hread, hcounter, h₁, hfresh, hother⟩ :=
            h.pbccListenerAlloc ⟨type, some subscription, cb, userData⟩ hmemory
          rw [halloc]
          simp only [Option.bind_eq_bind]
          obtain ⟨s', hremove, h', -, hread', hl'⟩ := removeFromNames_eq
            (r := ⟨type, some subscription, cb, userData⟩) rfl names { s with objects := objects } R
            hnodup h₁ (by rw [hset]; rfl) hread
            (fun place => by
              rw [listed_setObjects]
              exact hfresh place)
            ((hc (by simp) hmemory).setObjects hfresh hother)
          rw [← hset, hremove]
          simp only [Option.bind_some]
          rw [pbccListenerFree_of_read (hcounter.imp And.left And.left) hread']
          refine ⟨_, .ok, rfl, ?_⟩
          rw [if_pos rfl]
          exact h'.free hread' hl'

/-! ## Messages -/

/-- A message is told to all listeners of the context and, of those of the subscribable, to the ones
    with its type. -/
lemma Represents.emitMessage (h : Represents s R) (hset : s.listeners.isSome) (subscribable : Bytes)
    (message : PubnubV2Message) :
    s.emitMessage subscribable message = some (R none ++ (R (some subscribable)).filter fun r =>
      r.type = pbccMessageTypeToListenerType message.messageType) := by
  obtain ⟨set, hset⟩ := Option.isSome_iff_exists.mp hset
  have hcontext : (s.globalEvents.getD []).map (registrationAt s.objects) = (R none).map some :=
    h.listed none
  have hname : ((set.find? subscribable).getD []).map (registrationAt s.objects) =
      (R (some subscribable)).map some := by
    have hlisted := h.listed (some subscribable)
    rwa [PbccEventListener.listed, array, hset, Option.bind_some] at hlisted
  rw [PbccEventListener.emitMessage, pbccEmitMessage_eq hcontext, hset]
  simp only [Option.bind_eq_bind, Option.bind_some]
  rw [pbccEmitMessage_eq hname]
  simp only [Option.bind_some]
  congr 2
  · refine List.filter_eq_self.mpr fun r hr => ?_
    simp [(h.object none r hr).mpr rfl]
  · refine List.filter_congr fun r hr => ?_
    have hnone : r.subscriptionObject ≠ none := fun hnone =>
      absurd ((h.object (some subscribable) r hr).mp hnone) (by simp)
    simp [hnone]

/-- It is told to the listeners that match it if and only if there is a hash set and all listeners of
    the context have its type. -/
lemma Represents.emitMessage_iff (h : Represents s R) (subscribable : Bytes)
    (message : PubnubV2Message) :
    s.emitMessage subscribable message = some (R.matching subscribable message) ↔
      s.listeners.isSome = true ∧
        ∀ r ∈ R none, r.type = pbccMessageTypeToListenerType message.messageType := by
  by_cases hset : s.listeners.isSome = true
  · rw [h.emitMessage hset, Registrations.matching, List.filter_append, Option.some.injEq,
      List.append_left_inj]
    constructor
    · intro heq
      refine ⟨hset, fun r hr => ?_⟩
      simpa using List.filter_eq_self.mp heq.symm r hr
    · rintro ⟨-, htypes⟩
      exact (List.filter_eq_self.mpr fun r hr => by simpa using htypes r hr).symm
  · have hnone : s.listeners = none := by simpa using hset
    constructor
    · intro hemit
      rw [PbccEventListener.emitMessage, hnone] at hemit
      cases hcalls : pbccEmitMessage s.objects
          (pbccMessageTypeToListenerType message.messageType) (s.globalEvents.getD []) <;>
        simp [hcalls] at hemit
    · rintro ⟨hsome, -⟩
      exact absurd hsome hset

/-! ## Runs -/

/-- A clear call has a defined behaviour, and the lists are what is registered after it. -/
lemma Represents.step {s : ListenerRun} (h : Represents s.eventListener s.registered)
    {call : ListenerCall} (hc : ListenerClear s call) :
    ∃ s', listenerStep s call = some s' ∧ Represents s'.eventListener s'.registered := by
  cases call with
  | addMessageListener type cb userData memory =>
      obtain ⟨s', rslt, heq, h'⟩ := h.addMessageListener hc
      exact ⟨_, by rw [listenerStep, heq]; rfl, h'⟩
  | removeMessageListener type cb userData memory =>
      obtain ⟨s', rslt, heq, h'⟩ := h.removeMessageListener type cb userData memory
      exact ⟨_, by rw [listenerStep, heq]; rfl, h'⟩
  | addSubscriptionListener type names subscription cb userData memory =>
      obtain ⟨s', rslt, heq, h'⟩ := h.manageListenerAdd names.nodup hc
      exact ⟨_, by rw [listenerStep, heq]; rfl, h'⟩
  | removeSubscriptionListener type names subscription cb userData memory =>
      obtain ⟨s', rslt, heq, h'⟩ := h.removeSubscriptionObjectListener names.nodup hc
      exact ⟨_, by rw [listenerStep, heq]; rfl, h'⟩
  | emitMessage subscribable message =>
      obtain ⟨hset, -⟩ := hc
      exact ⟨s, by rw [listenerStep, h.emitMessage hset]; rfl, h⟩

lemma represents_init : Represents PbccEventListener.alloc fun _ => [] where
  listed place := by cases place <;> rfl
  nodup place := by cases place <;> exact List.nodup_nil
  object place r hr := absurd hr List.not_mem_nil
  length set hset := by cases hset

/-- **Which listeners are called.**  In a clear run no call has undefined behaviour, the list of the
    context and that of every name are what is registered there, and a message is told to the
    registered listeners that match it, once for each registration, if and only if that call is
    clear. -/
theorem listeners_called_as_registered (s : ListenerRun)
    (hr : eventListener.Reachable ListenerClear s) :
    (∀ call, ListenerClear s call → (listenerStep s call).isSome) ∧
    (∀ place, (s.eventListener.listed place).map s.eventListener.registration =
      (s.registered place).map some) ∧
    ∀ subscribable message,
      s.eventListener.emitMessage subscribable message =
          some (s.registered.matching subscribable message) ↔
        ListenerClear s (.emitMessage subscribable message) := by
  have h : Represents s.eventListener s.registered :=
    hr.invariant (P := fun s => Represents s.eventListener s.registered) represents_init
      fun s call s' h hc hst => by
        obtain ⟨t, hstep, ht⟩ := h.step hc
        rw [show eventListener.step s call = listenerStep s call from rfl, hstep] at hst
        cases hst
        exact ht
  refine ⟨fun call hc => ?_, h.listed, h.emitMessage_iff⟩
  obtain ⟨s', hstep, -⟩ := h.step hc
  rw [hstep]
  rfl

/-! ## Two channels -/

/-- A subscription to a channel with its presence channel. -/
def aSubscription : SubscribableNames := ⟨[ascii "a", ascii "a-pnpres"], by decide⟩

/-- Its listener is added and told about a message; another one cannot be added to the second
    channel; then the first one is removed. -/
theorem listeners_called_as_registered_aSubscription : ∃ s : ListenerRun,
    s.eventListener.emitMessage (ascii "a") { messageType := .published } =
      some [⟨.onMessage, none, 1, 0⟩, ⟨.onMessage, some 7, 2, 0⟩] := by
  obtain ⟨s, hr, hs⟩ := eventListener.exists_reachable_of_replay
    (G := ListenerClear) (fun s a => decide (ListenerClear s a))
    [.addMessageListener .onMessage (some 1) 0 {},
      .addSubscriptionListener .onMessage aSubscription 7 (some 2) 0 {},
      .addSubscriptionListener .onSignal aSubscription 7 (some 3) 0 {},
      .removeSubscriptionListener .onSignal aSubscription 7 (some 3) 0 .enough]
    (fun s => decide (ListenerClear s (.emitMessage (ascii "a") { messageType := .published })) &&
      s.registered.matching (ascii "a") { messageType := .published } ==
        [⟨.onMessage, none, 1, 0⟩, ⟨.onMessage, some 7, 2, 0⟩])
    (fun _ _ => of_decide_eq_true) (by decide +kernel)
  simp only [Bool.and_eq_true, beq_iff_eq, decide_eq_true_eq] at hs
  obtain ⟨-, -, hemit⟩ := listeners_called_as_registered s hr
  exact ⟨s, by rw [(hemit _ _).mpr hs.1, hs.2]⟩

/-- **A message comes before the first subscription listener.**  There is no hash set, and it is
    looked into.  And a registration that fails at its second name takes an equal one away. -/
theorem listeners_not_always_called_as_registered :
    (∃ s, eventListener.Reachable Machine.anyStep s ∧
      s.registered none = [⟨.onMessage, none, 1, 0⟩] ∧
      s.eventListener.emitMessage (ascii "a") { messageType := .published } = none) ∧
    ∃ s, eventListener.Reachable Machine.anyStep s ∧
      s.registered (some (ascii "a")) = [⟨.onMessage, some 7, 2, 0⟩] ∧
      s.eventListener.emitMessage (ascii "a") { messageType := .published } = some [] := by
  constructor
  · obtain ⟨s, hr, hs⟩ := eventListener.exists_reachable_of_replay
      (G := Machine.anyStep) (fun _ _ => true) [.addMessageListener .onMessage (some 1) 0 {}]
      (fun s => s.registered none == [⟨.onMessage, none, 1, 0⟩] &&
        s.eventListener.emitMessage (ascii "a") { messageType := .published } == none)
      (fun _ _ _ => trivial) (by decide +kernel)
    simp only [Bool.and_eq_true, beq_iff_eq] at hs
    exact ⟨s, hr, hs.1, hs.2⟩
  · obtain ⟨s, hr, hs⟩ := eventListener.exists_reachable_of_replay
      (G := Machine.anyStep) (fun _ _ => true)
      [.addSubscriptionListener .onMessage ⟨[ascii "a"], by decide⟩ 7 (some 2) 0 {},
        .addSubscriptionListener .onMessage ⟨[ascii "a", ascii "b"], by decide⟩ 7 (some 2) 0
          { name := fun c => if c = ascii "b" then .noObjectListener else .enough }]
      (fun s => s.registered (some (ascii "a")) == [⟨.onMessage, some 7, 2, 0⟩] &&
        s.eventListener.emitMessage (ascii "a") { messageType := .published } == some [])
      (fun _ _ _ => trivial) (by decide +kernel)
    simp only [Bool.and_eq_true, beq_iff_eq] at hs
    exact ⟨s, hr, hs.1, hs.2⟩

end PubNub
