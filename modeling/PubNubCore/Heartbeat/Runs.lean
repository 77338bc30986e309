import Mathlib.Data.List.Nodup
import Mathlib.Data.List.Perm.Subperm
import PubNubCore.Lib.Machine
import PubNubCore.Heartbeat.Watcher

/-!
# The timers of the heartbeats

In every run in which timers are started only where the code can tell that they do not run, the
array has the seats whose timers run, each of them once, and the counter counts the seats that are
taken (`heartbeatWatcher_right`).  `startClear` says where that is.  With the smart heartbeat, and
for a seat whose context has been disabled, `start_heartbeat_timer` does not ask whether the timer
runs.  Without the smart heartbeat it asks whether there is time left, and there is also where the
timer has been stopped.
-/

namespace PubNub

universe u

variable {C : Type u}

/-- What happens: calls of the user, what becomes of the transactions of a context, the end of a
    heartbeat, and time. -/
inductive HeartbeatAction (C : Type u)
  | enable (c : C) (periodSec : Nat) (allocates : Bool)
  | disable (c : C)
  | setPeriod (c : C) (periodSec : Nat)
  | setSmart (c : C) (on : Bool)
  | prepare (c : C) (channel channelGroup : Option Bytes)
  | ongoing (c : C)
  | finished (c : C) (starts : Bool)
  | heartbeatFinished (i : Nat) (result : HeartbeatResult) (starts : Bool)
  | tick (elapsed : Nat) (allocates starts : Nat → Bool)

namespace HeartbeatWatcher

variable (w : HeartbeatWatcher C)

/-- An action, if it can happen. -/
def step [DecidableEq C] : HeartbeatAction C → Option (HeartbeatWatcher C)
  | .enable c periodSec allocates => w.enableAutoHeartbeat c periodSec allocates
  | .disable c => w.disableAutoHeartbeat c
  | .setPeriod c periodSec => w.setHeartbeatPeriod c periodSec
  | .setSmart c on => some (w.setContext c { w.contexts c with useSmartHeartbeat := on })
  | .prepare c channel channelGroup => some (w.prepareChannels c channel channelGroup)
  | .ongoing c => w.transactionOngoing c
  | .finished c starts => w.startTimer c starts
  | .heartbeatFinished i result starts =>
      if (w.heartbeatData i).heartbeatPb = .busy then w.autoHeartbeatCallback i result starts
      else none
  | .tick elapsed allocates starts => w.handleHeartbeatTimers elapsed allocates starts

/-- The end of a heartbeat that has announced presence. -/
def announced (i : Nat) : Bool :=
  ((w.heartbeatData i).pb.filter fun c =>
    !(w.contexts c).useSmartHeartbeat && (w.contexts c).waitingAnnouncePresence).isSome

/-- The code can tell that the timer does not run, or that it runs. -/
def startClear (i : Nat) : Prop :=
  match (w.heartbeatData i).pb with
  | none => i ∉ w.timerIndexArray
  | some c =>
      if (w.contexts c).useSmartHeartbeat then i ∉ w.timerIndexArray
      else 0 < w.heartbeatTimers i ↔ i ∈ w.timerIndexArray

/-- The actions that start timers. -/
def actionClear : HeartbeatAction C → Prop
  | .finished c _ =>
      (w.contexts c).thumperIndex ≠ maxHeartbeatThumpers →
        w.startClear (w.contexts c).thumperIndex
  | .heartbeatFinished i result _ => result = .ok → w.announced i = false → w.startClear i
  | _ => True

/-- The array has the seats whose timers run. -/
structure TimersRight : Prop where
  nodup : w.timerIndexArray.Nodup
  lt : ∀ i ∈ w.timerIndexArray, i < maxHeartbeatThumpers
  running : ∀ i, i ∈ w.timerIndexArray ↔ w.running i = true

/-- The contexts and their seats. -/
structure SeatsRight : Prop where
  seated : ∀ c, (w.contexts c).thumperIndex ≠ maxHeartbeatThumpers →
    (w.heartbeatData (w.contexts c).thumperIndex).pb = some c
  index : ∀ i c, (w.heartbeatData i).pb = some c →
    i < maxHeartbeatThumpers ∧ (w.contexts c).thumperIndex = i
  inUse : w.thumpersInUse =
    ((List.range maxHeartbeatThumpers).filter fun i => (w.heartbeatData i).pb.isSome).length

variable {w} {w' w'' : HeartbeatWatcher C} {i : Nat} {c : C} {pb : Option C} {starts : Bool}

/-- There are no more indices than seats. -/
lemma TimersRight.length_le (h : w.TimersRight) :
    w.timerIndexArray.length ≤ maxHeartbeatThumpers := by
  have hsubset : w.timerIndexArray ⊆ List.range maxHeartbeatThumpers := fun i hi =>
    List.mem_range.mpr (h.lt i hi)
  have hle := (List.subperm_of_subset h.nodup hsubset).length_le
  rwa [List.length_range] at hle

/-- An index that is not there has room. -/
lemma TimersRight.length_lt (h : w.TimersRight) (hlt : i < maxHeartbeatThumpers)
    (hi : i ∉ w.timerIndexArray) : w.timerIndexArray.length < maxHeartbeatThumpers := by
  have hnodup : (i :: w.timerIndexArray).Nodup := List.nodup_cons.mpr ⟨hi, h.nodup⟩
  have hsubset : i :: w.timerIndexArray ⊆ List.range maxHeartbeatThumpers := by
    intro j hj
    rcases List.mem_cons.mp hj with rfl | hj
    · exact List.mem_range.mpr hlt
    · exact List.mem_range.mpr (h.lt j hj)
  have hle := (List.subperm_of_subset hnodup hsubset).length_le
  rwa [List.length_range, List.length_cons] at hle

/-! ## What stays the same -/

/-- The seats are those they were. -/
structure SameSeats (w w' : HeartbeatWatcher C) : Prop where
  pb : ∀ i, (w'.heartbeatData i).pb = (w.heartbeatData i).pb
  index : ∀ c, (w'.contexts c).thumperIndex = (w.contexts c).thumperIndex
  inUse : w'.thumpersInUse = w.thumpersInUse

/-- The timers are those they were. -/
structure SameTimers (w w' : HeartbeatWatcher C) : Prop where
  array : w'.timerIndexArray = w.timerIndexArray
  running : w'.running = w.running

lemma SameSeats.refl (w : HeartbeatWatcher C) : SameSeats w w :=
  ⟨fun _ => rfl, fun _ => rfl, rfl⟩

lemma SameSeats.trans (h : SameSeats w w') (h' : SameSeats w' w'') : SameSeats w w'' :=
  ⟨fun i => (h'.pb i).trans (h.pb i), fun c => (h'.index c).trans (h.index c),
    h'.inUse.trans h.inUse⟩

lemma SameTimers.refl (w : HeartbeatWatcher C) : SameTimers w w := ⟨rfl, rfl⟩

lemma SameTimers.trans (h : SameTimers w w') (h' : SameTimers w' w'') : SameTimers w w'' :=
  ⟨h'.array.trans h.array, h'.running.trans h.running⟩

lemma SeatsRight.of_same (h : w.SeatsRight) (hsame : SameSeats w w') : w'.SeatsRight := by
  refine ⟨fun c hc => ?_, fun i c hc => ?_, ?_⟩
  · rw [hsame.index, hsame.pb]
    rw [hsame.index] at hc
    exact h.seated c hc
  · rw [hsame.pb] at hc
    rw [hsame.index]
    exact h.index i c hc
  · rw [hsame.inUse, h.inUse]
    simp only [hsame.pb]

lemma TimersRight.of_same (h : w.TimersRight) (hsame : SameTimers w w') : w'.TimersRight := by
  refine ⟨?_, ?_, ?_⟩
  · rw [hsame.array]
    exact h.nodup
  · rw [hsame.array]
    exact h.lt
  · rw [hsame.array, hsame.running]
    exact h.running

/-- A seat keeps its context. -/
lemma sameSeats_setData (d : HeartbeatData C) (hd : d.pb = (w.heartbeatData i).pb) :
    SameSeats w (w.setData i d) := by
  refine ⟨fun j => ?_, fun _ => rfl, rfl⟩
  change (Function.update w.heartbeatData i d j).pb = _
  by_cases hj : j = i
  · rw [hj, Function.update_self, hd]
  · rw [Function.update_of_ne hj]

lemma sameTimers_setData (d : HeartbeatData C) : SameTimers w (w.setData i d) := ⟨rfl, rfl⟩

/-- A heartbeat changes neither, nor the time that is left. -/
lemma heartbeatThump_same (h : w.heartbeatThump pb i starts = some w') :
    SameSeats w w' ∧ SameTimers w w' ∧ w'.heartbeatTimers = w.heartbeatTimers := by
  obtain ⟨c, -, h⟩ := Option.bind_eq_some_iff.mp h
  split at h
  · cases h
  · cases h
    exact ⟨SameSeats.refl w, SameTimers.refl w, rfl⟩
  · split at h
    · cases h
      exact ⟨sameSeats_setData _ rfl, sameTimers_setData _, rfl⟩
    · cases h
      exact ⟨SameSeats.refl w, SameTimers.refl w, rfl⟩

lemma initNewThumperPb_same {allocates : Bool} (h : w.initNewThumperPb i allocates = some w') :
    SameSeats w w' ∧ SameTimers w w' := by
  rw [initNewThumperPb] at h
  split at h
  · split at h
    · cases h
      exact ⟨sameSeats_setData _ rfl, sameTimers_setData _⟩
    · cases h
  · cases h
    exact ⟨SameSeats.refl w, SameTimers.refl w⟩

lemma setHeartbeatPeriod_same {periodSec : Nat} (h : w.setHeartbeatPeriod c periodSec = some w') :
    SameSeats w w' ∧ SameTimers w w' := by
  rw [setHeartbeatPeriod] at h
  split at h
  · cases h
  · split at h
    · cases h
      exact ⟨SameSeats.refl w, SameTimers.refl w⟩
    · cases h
      exact ⟨sameSeats_setData _ rfl, sameTimers_setData _⟩

/-! ## Starting and stopping -/

/-- A timer that is added. -/
lemma addTimer_right (h : w.TimersRight) (hadd : w.addTimer i = some w')
    (hi : i ∉ w.timerIndexArray) : SameSeats w w' ∧ w'.TimersRight := by
  rw [addTimer] at hadd
  split at hadd
  · rename_i hlt
    cases hadd
    refine ⟨⟨fun _ => rfl, fun _ => rfl, rfl⟩, ?_, ?_, ?_⟩
    · refine List.Nodup.append h.nodup (List.nodup_singleton i) ?_
      rw [List.disjoint_singleton]
      exact hi
    · intro j hj
      rcases List.mem_append.mp hj with hj | hj
      · exact h.lt j hj
      · rw [List.mem_singleton.mp hj]
        exact hlt.1
    · intro j
      change j ∈ w.timerIndexArray ++ [i] ↔ Function.update w.running i true j = true
      by_cases hj : j = i
      · subst hj
        simp
      · rw [Function.update_of_ne hj, ← h.running]
        simp [hj]
  · cases hadd

/-- A timer that is running already. -/
lemma keepTimer_right (h : w.TimersRight) (hi : i ∈ w.timerIndexArray) :
    SameSeats w { w with running := Function.update w.running i true } ∧
      TimersRight { w with running := Function.update w.running i true } := by
  have hsame : Function.update w.running i true = w.running := by
    rw [← (h.running i).mp hi, Function.update_eq_self]
  rw [hsame]
  exact ⟨SameSeats.refl w, h⟩

/-- Stopping a timer. -/
lemma stopHeartbeat_right (h : w.TimersRight) (hstop : w.stopHeartbeat i = some w') :
    SameSeats w w' ∧ w'.TimersRight := by
  rw [stopHeartbeat] at hstop
  split at hstop
  · cases hstop
  · rw [autoHeartbeatStopTimer] at hstop
    split at hstop
    · cases hstop
      refine ⟨⟨fun _ => rfl, fun _ => rfl, rfl⟩, h.nodup.erase i, fun j hj => h.lt j
        (List.mem_of_mem_erase hj), fun j => ?_⟩
      change j ∈ w.timerIndexArray.erase i ↔ Function.update w.running i false j = true
      rw [h.nodup.mem_erase_iff]
      by_cases hj : j = i
      · subst hj
        simp
      · rw [Function.update_of_ne hj, ← h.running]
        simp [hj]
    · cases hstop
  · cases hstop
    exact ⟨SameSeats.refl w, h⟩

section Contexts

variable [DecidableEq C]

/-- A context keeps its seat. -/
lemma sameSeats_setContext (info : HeartbeatInfo)
    (hinfo : info.thumperIndex = (w.contexts c).thumperIndex) :
    SameSeats w (w.setContext c info) := by
  refine ⟨fun _ => rfl, fun d => ?_, rfl⟩
  change (Function.update w.contexts c info d).thumperIndex = _
  by_cases hd : d = c
  · rw [hd, Function.update_self, hinfo]
  · rw [Function.update_of_ne hd]

lemma sameTimers_setContext (info : HeartbeatInfo) : SameTimers w (w.setContext c info) := ⟨rfl, rfl⟩

/-- Starting a timer. -/
lemma startHeartbeatTimer_right (h : w.TimersRight) (hclear : w.startClear i)
    (hstart : w.startHeartbeatTimer i starts = some w') : SameSeats w w' ∧ w'.TimersRight := by
  rw [startHeartbeatTimer] at hstart
  rw [startClear] at hclear
  cases hpb : (w.heartbeatData i).pb with
  | none =>
      rw [hpb] at hstart hclear
      exact addTimer_right h hstart hclear
  | some c =>
      rw [hpb] at hstart hclear
      obtain ⟨v, hthump, hstart⟩ := Option.bind_eq_some_iff.mp hstart
      have hannounce : SameSeats w (w.announce c) ∧ SameTimers w (w.announce c) ∧
          (w.announce c).heartbeatTimers = w.heartbeatTimers :=
        ⟨sameSeats_setContext _ rfl, sameTimers_setContext _, rfl⟩
      have hv : SameSeats w v ∧ SameTimers w v ∧ v.heartbeatTimers = w.heartbeatTimers := by
        split at hthump
        · obtain ⟨hseats, htimers, hleft⟩ := heartbeatThump_same hthump
          exact ⟨hannounce.1.trans hseats, hannounce.2.1.trans htimers,
            hleft.trans hannounce.2.2⟩
        · cases hthump
          exact hannounce
      obtain ⟨hseats, htimers, hleft⟩ := hv
      have hvright := h.of_same htimers
      have hadded : ∀ {v'}, v.addTimer i = some v' → i ∉ w.timerIndexArray →
          SameSeats w v' ∧ v'.TimersRight := by
        intro v' hadd hi
        rw [← htimers.array] at hi
        obtain ⟨hadded, hright⟩ := addTimer_right hvright hadd hi
        exact ⟨hseats.trans hadded, hright⟩
      dsimp only at hclear hstart
      cases hsmart : (w.contexts c).useSmartHeartbeat with
      | true =>
          rw [hsmart, if_pos rfl] at hclear
          rw [hsmart, if_neg (by simp)] at hstart
          exact hadded hstart hclear
      | false =>
          rw [hsmart, if_neg (by simp)] at hclear
          rw [hsmart] at hstart
          rw [← hleft] at hclear
          by_cases hpos : 0 < v.heartbeatTimers i
          · rw [if_pos ⟨hpos, rfl⟩] at hstart
            cases hstart
            have hi := hclear.mp hpos
            rw [← htimers.array] at hi
            obtain ⟨hkept, hright⟩ := keepTimer_right hvright hi
            exact ⟨hseats.trans hkept, hright⟩
          · rw [if_neg fun hboth => hpos hboth.1] at hstart
            exact hadded hstart fun hi => hpos (hclear.mpr hi)

/-- The end of a heartbeat. -/
lemma autoHeartbeatCallback_right {result : HeartbeatResult} (h : w.TimersRight)
    (hclear : result = .ok → w.announced i = false → w.startClear i)
    (hcallback : w.autoHeartbeatCallback i result starts = some w') :
    SameSeats w w' ∧ w'.TimersRight := by
  have hidle : SameSeats w (w.setData i { w.heartbeatData i with heartbeatPb := .idle }) ∧
      SameTimers w (w.setData i { w.heartbeatData i with heartbeatPb := .idle }) :=
    ⟨sameSeats_setData _ rfl, sameTimers_setData _⟩
  obtain ⟨v, hv⟩ : ∃ v, v = w.setData i { w.heartbeatData i with heartbeatPb := .idle } :=
    ⟨_, rfl⟩
  have hpb : (v.heartbeatData i).pb = (w.heartbeatData i).pb := by
    rw [hv]
    exact hidle.1.pb i
  rw [autoHeartbeatCallback.eq_def, ← hv] at hcallback
  rw [← hv] at hidle
  have hright := h.of_same hidle.2
  dsimp only at hcallback
  split at hcallback
  · cases hcallback
    exact ⟨hidle.1.trans (sameSeats_setContext _ rfl), hright.of_same (sameTimers_setContext _)⟩
  · rename_i hnone
    cases result with
    | ok =>
        have hannounced : w.announced i = false := by
          rw [announced, ← hpb]
          have hcontexts : w.contexts = v.contexts := by rw [hv]; rfl
          rw [hcontexts, hnone]
          rfl
        have hstart : v.startClear i := by
          have hw := hclear rfl hannounced
          rw [hv]
          rw [startClear] at hw ⊢
          rw [← hv, hpb]
          rw [hv]
          exact hw
        obtain ⟨hseats, hstarted⟩ := startHeartbeatTimer_right hright hstart hcallback
        exact ⟨hidle.1.trans hseats, hstarted⟩
    | failed =>
        obtain ⟨hseats, htimers, -⟩ := heartbeatThump_same hcallback
        exact ⟨hidle.1.trans hseats, hright.of_same htimers⟩
    | cancelled =>
        cases hcallback
        exact ⟨hidle.1, hright⟩

/-- A context keeps its seat when something else of it changes. -/
lemma prepareChannels_same (channel channelGroup : Option Bytes) :
    SameSeats w (w.prepareChannels c channel channelGroup) ∧
      SameTimers w (w.prepareChannels c channel channelGroup) := by
  rw [prepareChannels]
  split
  · exact ⟨SameSeats.refl w, SameTimers.refl w⟩
  · exact ⟨sameSeats_setContext _ rfl, sameTimers_setContext _⟩

end Contexts

/-! ## Time -/

/-- A timer that expires no longer runs. -/
lemma expire_same {allocates : Bool} (h : w.expire i allocates starts = some w') :
    SameSeats w w' ∧ w'.running = Function.update w.running i false := by
  obtain ⟨c, -, h⟩ := Option.bind_eq_some_iff.mp h
  split at h
  · cases h
    exact ⟨⟨fun _ => rfl, fun _ => rfl, rfl⟩, rfl⟩
  · rename_i v hinit
    obtain ⟨hseats, htimers⟩ := initNewThumperPb_same hinit
    obtain ⟨hseats', htimers', -⟩ := heartbeatThump_same h
    refine ⟨⟨fun j => ?_, fun d => ?_, ?_⟩, ?_⟩
    · exact (hseats'.pb j).trans (hseats.pb j)
    · exact (hseats'.index d).trans (hseats.index d)
    · exact hseats'.inUse.trans hseats.inUse
    · exact htimers'.running.trans htimers.running

/-- Those that expire leave the array. -/
lemma handleLoop_right {elapsed : Nat} {allocates starts : Nat → Bool} {indexes kept : List Nat}
    (hnodup : indexes.Nodup)
    (h : handleLoop elapsed allocates starts w indexes = some (w', kept)) :
    SameSeats w w' ∧ kept.Sublist indexes ∧
      ∀ j, w'.running j = true ↔ w.running j = true ∧ (j ∈ indexes → j ∈ kept) := by
  induction indexes generalizing w kept with
  | nil =>
      cases h
      refine ⟨SameSeats.refl _, List.Sublist.refl [], fun j => ?_⟩
      simp
  | cons i indexes ih =>
      obtain ⟨hi, hnodup⟩ := List.nodup_cons.mp hnodup
      rw [handleLoop] at h
      split at h
      · obtain ⟨v, hexpire, h⟩ := Option.bind_eq_some_iff.mp h
        obtain ⟨hseats, hrunning⟩ := expire_same hexpire
        obtain ⟨hseats', hsublist, hright⟩ := ih hnodup h
        refine ⟨hseats.trans hseats', hsublist.cons i, fun j => ?_⟩
        rw [hright, hrunning]
        by_cases hj : j = i
        · subst hj
          have hkept : j ∉ kept := fun hmem => hi (hsublist.subset hmem)
          simp [hkept]
        · rw [Function.update_of_ne hj, List.mem_cons]
          simp [hj]
      · obtain ⟨⟨v, rest⟩, hloop, h⟩ := Option.map_eq_some_iff.mp h
        cases h
        obtain ⟨hseats, hsublist, hright⟩ := ih hnodup hloop
        refine ⟨⟨hseats.pb, hseats.index, hseats.inUse⟩, hsublist.cons_cons i, fun j => ?_⟩
        rw [hright]
        by_cases hj : j = i
        · subst hj
          simp [hi]
        · simp [hj]

lemma handleHeartbeatTimers_right {elapsed : Nat} {allocates starts : Nat → Bool}
    (hright : w.TimersRight)
    (h : w.handleHeartbeatTimers elapsed allocates starts = some w') :
    SameSeats w w' ∧ w'.TimersRight := by
  obtain ⟨⟨v, kept⟩, hloop, h⟩ := Option.map_eq_some_iff.mp h
  cases h
  obtain ⟨hseats, hsublist, hrunning⟩ := handleLoop_right hright.nodup hloop
  refine ⟨⟨hseats.pb, hseats.index, hseats.inUse⟩, hright.nodup.sublist hsublist,
    fun j hj => hright.lt j (hsublist.subset hj), fun j => ?_⟩
  change j ∈ kept ↔ v.running j = true
  rw [hrunning, ← hright.running]
  constructor
  · intro hj
    exact ⟨hsublist.subset hj, fun _ => hj⟩
  · rintro ⟨hj, hkept⟩
    exact hkept hj

/-! ## Seats -/

/-- One more is chosen. -/
lemma length_filter_range_add {p q : Nat → Bool} {n : Nat} (hi : i < n) (hp : p i = false)
    (hq : q i = true) (hne : ∀ j, j ≠ i → q j = p j) :
    ((List.range n).filter q).length = ((List.range n).filter p).length + 1 := by
  induction n with
  | zero => cases hi
  | succ n ih =>
      simp only [List.range_succ, List.filter_append, List.length_append]
      by_cases hn : i = n
      · subst hn
        have hsame : (List.range i).filter q = (List.range i).filter p := by
          refine List.filter_congr fun j hj => hne j ?_
          exact Nat.ne_of_lt (List.mem_range.mp hj)
        simp [hsame, hp, hq]
      · rw [ih (by omega)]
        have hlast : [n].filter q = [n].filter p := by
          refine List.filter_congr fun j hj => hne j ?_
          rw [List.mem_singleton.mp hj]
          exact fun h => hn h.symm
        rw [hlast]
        omega

/-- A context that gets a seat nobody has. -/
lemma SeatsRight.seat (h : w.SeatsRight) (hlt : i < maxHeartbeatThumpers)
    (hc : (w.contexts c).thumperIndex = maxHeartbeatThumpers)
    (hi : (w.heartbeatData i).pb = none)
    (hpb : ∀ j, (w'.heartbeatData j).pb = if j = i then some c else (w.heartbeatData j).pb)
    (hcself : (w'.contexts c).thumperIndex = i)
    (hcother : ∀ d, d ≠ c → (w'.contexts d).thumperIndex = (w.contexts d).thumperIndex)
    (hinUse : w'.thumpersInUse = w.thumpersInUse + 1) : w'.SeatsRight := by
  refine ⟨fun d hd => ?_, fun j d hd => ?_, ?_⟩
  · by_cases hdc : d = c
    · rw [hdc, hcself, hpb, if_pos rfl]
    · rw [hcother d hdc] at hd ⊢
      have hseated := h.seated d hd
      rw [hpb, if_neg, hseated]
      intro hseat
      rw [hseat, hi] at hseated
      cases hseated
  · rw [hpb] at hd
    by_cases hj : j = i
    · rw [if_pos hj] at hd
      cases hd
      exact ⟨hj ▸ hlt, hcself.trans hj.symm⟩
    · rw [if_neg hj] at hd
      obtain ⟨hjlt, hindex⟩ := h.index j d hd
      have hdc : d ≠ c := by
        rintro rfl
        omega
      exact ⟨hjlt, (hcother d hdc).trans hindex⟩
  · rw [hinUse, h.inUse]
    refine (length_filter_range_add hlt ?_ ?_ fun j hj => ?_).symm
    · rw [hi]
      rfl
    · rw [hpb, if_pos rfl]
      rfl
    · rw [hpb, if_neg hj]

/-- A context that gives its seat back. -/
lemma SeatsRight.release (h : w.SeatsRight)
    (hc : (w.contexts c).thumperIndex = i) (hi : i ≠ maxHeartbeatThumpers)
    (hpb : ∀ j, (w'.heartbeatData j).pb = if j = i then none else (w.heartbeatData j).pb)
    (hcself : (w'.contexts c).thumperIndex = maxHeartbeatThumpers)
    (hcother : ∀ d, d ≠ c → (w'.contexts d).thumperIndex = (w.contexts d).thumperIndex)
    (hinUse : w'.thumpersInUse = (w.thumpersInUse + 2 ^ 32 - 1) % 2 ^ 32) : w'.SeatsRight := by
  have hseat : (w.heartbeatData i).pb = some c := by
    rw [← hc]
    exact h.seated c (hc ▸ hi)
  refine ⟨fun d hd => ?_, fun j d hd => ?_, ?_⟩
  · have hdc : d ≠ c := by
      rintro rfl
      exact hd hcself
    rw [hcother d hdc] at hd ⊢
    have hseated := h.seated d hd
    rw [hpb, if_neg, hseated]
    intro hsame
    rw [hsame, hseat] at hseated
    cases hseated
    exact hdc rfl
  · rw [hpb] at hd
    by_cases hj : j = i
    · rw [if_pos hj] at hd
      cases hd
    · rw [if_neg hj] at hd
      obtain ⟨hjlt, hindex⟩ := h.index j d hd
      have hdc : d ≠ c := by
        rintro rfl
        exact hj (hindex.symm.trans hc)
      exact ⟨hjlt, (hcother d hdc).trans hindex⟩
  · have hadd := length_filter_range_add (p := fun j => (w'.heartbeatData j).pb.isSome)
      (q := fun j => (w.heartbeatData j).pb.isSome) (h.index i c hseat).1
      (by rw [hpb, if_pos rfl]; rfl) (by rw [hseat]; rfl) fun j hj => by rw [hpb, if_neg hj]
    have hle := List.length_filter_le (fun j => (w.heartbeatData j).pb.isSome)
      (List.range maxHeartbeatThumpers)
    rw [← h.inUse] at hadd hle
    rw [List.length_range, maxHeartbeatThumpers] at hle
    rw [hinUse]
    omega

section Contexts

variable [DecidableEq C]

/-- A seat is looked for where the context has none. -/
lemma formHeartbeatThumper_right (allocates : Bool) (hright : w.SeatsRight)
    (hc : (w.contexts c).thumperIndex = maxHeartbeatThumpers) :
    (w.formHeartbeatThumper c allocates).1.SeatsRight ∧
      SameTimers w (w.formHeartbeatThumper c allocates).1 := by
  rw [formHeartbeatThumper]
  split
  · exact ⟨hright, SameTimers.refl w⟩
  · split
    · exact ⟨hright, SameTimers.refl w⟩
    · rename_i i hfind
      split
      · exact ⟨hright, SameTimers.refl w⟩
      · rename_i v hinit
        obtain ⟨hseats, htimers⟩ := initNewThumperPb_same hinit
        have hlt := List.mem_range.mp (List.mem_of_find?_eq_some hfind)
        have hnone := List.find?_some hfind
        rw [Option.isNone_iff_eq_none] at hnone
        refine ⟨?_, ⟨htimers.array, htimers.running⟩⟩
        refine (hright.of_same hseats).seat (c := c) hlt ?_ ?_ (fun j => ?_) ?_ (fun d hd => ?_) rfl
        · rw [hseats.index, hc]
        · rw [hseats.pb, hnone]
        · change (Function.update v.heartbeatData i _ j).pb = _
          by_cases hj : j = i
          · subst hj
            rw [Function.update_self, if_pos rfl]
          · rw [Function.update_of_ne hj, if_neg hj]
        · change (Function.update v.contexts c _ c).thumperIndex = i
          rw [Function.update_self]
        · change (Function.update v.contexts c _ d).thumperIndex = _
          rw [Function.update_of_ne hd]

lemma enableAutoHeartbeat_right {periodSec : Nat} {allocates : Bool} (hright : w.SeatsRight)
    (h : w.enableAutoHeartbeat c periodSec allocates = some w') :
    w'.SeatsRight ∧ SameTimers w w' := by
  rw [enableAutoHeartbeat] at h
  split at h
  · rename_i hc
    obtain ⟨hformed, htimers⟩ := formHeartbeatThumper_right allocates hright hc
    dsimp only at h
    split at h
    · obtain ⟨hseats, hset⟩ := setHeartbeatPeriod_same h
      exact ⟨hformed.of_same hseats, htimers.trans hset⟩
    · cases h
      exact ⟨hformed, htimers⟩
  · obtain ⟨hseats, hset⟩ := setHeartbeatPeriod_same h
    exact ⟨hright.of_same hseats, hset⟩

lemma disableAutoHeartbeat_right (hright : w.SeatsRight) (htimers : w.TimersRight)
    (h : w.disableAutoHeartbeat c = some w') : w'.SeatsRight ∧ w'.TimersRight := by
  rw [disableAutoHeartbeat] at h
  dsimp only at h
  split at h
  · cases h
    exact ⟨hright, htimers⟩
  · rename_i hi
    obtain ⟨v, hrelease, h⟩ := Option.map_eq_some_iff.mp h
    cases h
    rw [releaseThumper] at hrelease
    have hlt := (hright.index _ c (hright.seated c hi)).1
    rw [if_pos hlt] at hrelease
    have hreleased : TimersRight { w.setData (w.contexts c).thumperIndex
        { w.heartbeatData (w.contexts c).thumperIndex with pb := none } with
          thumpersInUse := (w.thumpersInUse + 2 ^ 32 - 1) % 2 ^ 32 } :=
      htimers.of_same ⟨rfl, rfl⟩
    obtain ⟨hseats, hstopped⟩ := stopHeartbeat_right hreleased hrelease
    refine ⟨hright.release (c := c) rfl hi (fun j => ?_) ?_ (fun d hd => ?_) ?_,
      hstopped.of_same ⟨rfl, rfl⟩⟩
    · refine (hseats.pb j).trans ?_
      change (Function.update w.heartbeatData _ _ j).pb = _
      by_cases hj : j = (w.contexts c).thumperIndex
      · rw [if_pos hj, hj, Function.update_self]
      · rw [if_neg hj, Function.update_of_ne hj]
    · change (Function.update v.contexts c _ c).thumperIndex = _
      rw [Function.update_self]
    · change (Function.update v.contexts c _ d).thumperIndex = _
      rw [Function.update_of_ne hd]
      exact hseats.index d
    · exact hseats.inUse

/-! ## What holds in every run -/

/-- What one action keeps. -/
lemma step_right {a : HeartbeatAction C} (hseats : w.SeatsRight) (htimers : w.TimersRight)
    (hclear : w.actionClear a) (h : w.step a = some w') : w'.SeatsRight ∧ w'.TimersRight := by
  cases a with
  | enable c periodSec allocates =>
      obtain ⟨hright, hsame⟩ := enableAutoHeartbeat_right hseats h
      exact ⟨hright, htimers.of_same hsame⟩
  | disable c => exact disableAutoHeartbeat_right hseats htimers h
  | setPeriod c periodSec =>
      obtain ⟨hsame, hkept⟩ := setHeartbeatPeriod_same h
      exact ⟨hseats.of_same hsame, htimers.of_same hkept⟩
  | setSmart c on =>
      cases h
      exact ⟨hseats.of_same (sameSeats_setContext _ rfl),
        htimers.of_same (sameTimers_setContext _)⟩
  | prepare c channel channelGroup =>
      cases h
      obtain ⟨hsame, hkept⟩ := prepareChannels_same (w := w) (c := c) channel channelGroup
      exact ⟨hseats.of_same hsame, htimers.of_same hkept⟩
  | ongoing c =>
      rw [step, transactionOngoing] at h
      split at h
      · obtain ⟨hsame, hright⟩ := stopHeartbeat_right htimers h
        exact ⟨hseats.of_same hsame, hright⟩
      · cases h
        exact ⟨hseats, htimers⟩
  | finished c starts =>
      rw [step, startTimer] at h
      split at h
      · rename_i hi
        obtain ⟨hsame, hright⟩ := startHeartbeatTimer_right htimers (hclear hi) h
        exact ⟨hseats.of_same hsame, hright⟩
      · cases h
        exact ⟨hseats, htimers⟩
  | heartbeatFinished i result starts =>
      rw [step] at h
      split at h
      · obtain ⟨hsame, hright⟩ := autoHeartbeatCallback_right htimers hclear h
        exact ⟨hseats.of_same hsame, hright⟩
      · cases h
  | tick elapsed allocates starts =>
      obtain ⟨hsame, hright⟩ := handleHeartbeatTimers_right htimers h
      exact ⟨hseats.of_same hsame, hright⟩

end Contexts

end HeartbeatWatcher

/-- The watcher, which is told what happens. -/
def heartbeatMachine (C : Type u) [DecidableEq C] :
    Machine (HeartbeatWatcher C) (HeartbeatAction C) where
  init := {}
  step := fun w a => w.step a

/-- **The timers of the heartbeats.**  In every run in which a timer is started only where the code
    can tell whether it runs, the array has distinct indices of seats, no more than there are, and
    has those of the timers that run; and the counter counts the seats that are taken. -/
theorem heartbeatWatcher_right [DecidableEq C] {w : HeartbeatWatcher C}
    (hw : (heartbeatMachine C).Reachable HeartbeatWatcher.actionClear w) :
    w.timerIndexArray.Nodup ∧ (∀ i ∈ w.timerIndexArray, i < maxHeartbeatThumpers) ∧
      w.timerIndexArray.length ≤ maxHeartbeatThumpers ∧
      (∀ i, i ∈ w.timerIndexArray ↔ w.running i = true) ∧
      w.thumpersInUse = ((List.range maxHeartbeatThumpers).filter fun i =>
        (w.heartbeatData i).pb.isSome).length := by
  have hright : w.SeatsRight ∧ w.TimersRight := by
    refine hw.invariant (P := fun w => w.SeatsRight ∧ w.TimersRight) ?_ ?_
    · refine ⟨⟨fun c hc => absurd rfl hc, fun i c hc => ?_, rfl⟩, List.nodup_nil,
        List.forall_mem_nil _, fun i => ?_⟩
      · cases hc
      · constructor
        · intro hi
          cases hi
        · intro hi
          cases hi
    · rintro s a s' ⟨hseats, htimers⟩ hclear hstep
      exact HeartbeatWatcher.step_right hseats htimers hclear hstep
  obtain ⟨hseats, htimers⟩ := hright
  exact ⟨htimers.nodup, htimers.lt, htimers.length_le, htimers.running, hseats.inUse⟩

theorem heartbeatWatcher_right_one : ∃ w : HeartbeatWatcher Nat,
    (heartbeatMachine Nat).Reachable HeartbeatWatcher.actionClear w ∧
      w.timerIndexArray = [0] ∧ w.timerIndexArray.Nodup := by
  have hone : (heartbeatMachine Nat).Reachable HeartbeatWatcher.actionClear _ :=
    .step .init (a := .enable 7 20 true) trivial rfl
  have hs : (heartbeatMachine Nat).Reachable HeartbeatWatcher.actionClear _ :=
    .step hone (a := .finished 7 false) (fun _ => List.not_mem_nil) rfl
  exact ⟨_, hs, rfl, (heartbeatWatcher_right hs).1⟩

/-- A subscribe that is ongoing when the smart heartbeat is turned on does not stop the timer, and
    starts it again at its end.  A timer that has been stopped by disabling is not started without
    the smart heartbeat. -/
theorem heartbeatWatcher_not_always_right :
    (∃ w : HeartbeatWatcher Nat, (heartbeatMachine Nat).replay (fun _ _ => true)
        (heartbeatMachine Nat).init
        [.enable 7 20 true, .setSmart 7 false, .finished 7 false, .ongoing 7, .setSmart 7 true,
          .finished 7 false] = some w ∧ w.timerIndexArray = [0, 0]) ∧
    ∃ w : HeartbeatWatcher Nat, (heartbeatMachine Nat).replay (fun _ _ => true)
        (heartbeatMachine Nat).init
        [.enable 7 20 true, .setSmart 7 false, .finished 7 false, .disable 7, .enable 7 20 true,
          .finished 7 false] = some w ∧ w.timerIndexArray = [] ∧ w.running 0 = true :=
  ⟨⟨_, rfl, rfl⟩, _, rfl, rfl, rfl⟩

end PubNub
