import Mathlib.Logic.Function.Basic
import PubNubCore.Core.Types

/-!
# The watcher of automatic heartbeats

`core/pbauto_heartbeat.c`.  A context for which automatic heartbeats are enabled has a seat among the
thumpers: there is a second context there (`heartbeat_pb`), which makes the heartbeats, and a timer.
The timer is started when a subscribe or a heartbeat is finished, and when it expires, a heartbeat is
made.  With the smart heartbeat, which is on at first, the timer is stopped while a subscribe or a
heartbeat of the context is waited for, and no heartbeat is made when the channels change.

`timerIndexArray` is `timer_index_array` up to `active_timers`.  What `heartbeat_pb` is doing is only
`idle` or `busy`, and whether a heartbeat can be started is up to the network (`starts`); its end is
an action of its own.  The keys of a context are those it had when it got its seat.

`running` is not in the source: it says for which seats a timer has been started, and has neither
expired nor been stopped.
-/

namespace PubNub

universe u

variable {C : Type u}

/-- `PUBNUB_MAX_HEARTBEAT_THUMPERS`, which is also `UNASSIGNED`. -/
def maxHeartbeatThumpers : Nat := 16

/-- `PUBNUB_MIN_HEARTBEAT_PERIOD`. -/
def minHeartbeatPeriod : Nat := 10

/-- The context that makes the heartbeats. -/
inductive HeartbeatPb
  | absent | idle | busy
  deriving DecidableEq, Repr

/-- `struct pubnub_heartbeat_data`. -/
structure HeartbeatData (C : Type u) where
  pb : Option C := none
  heartbeatPb : HeartbeatPb := .absent
  periodSec : Nat := 0

/-- `M_heartbeatInfo` and `M_channelInfo`, as `pubnub_init` leaves them. -/
structure HeartbeatInfo where
  thumperIndex : Nat := maxHeartbeatThumpers
  useSmartHeartbeat : Bool := true
  shouldAnnouncePresence : Bool := true
  waitingAnnouncePresence : Bool := false
  channel : Option Bytes := none
  channelGroup : Option Bytes := none

/-- `struct HeartbeatWatcherData` and the contexts. -/
structure HeartbeatWatcher (C : Type u) where
  heartbeatData : Nat → HeartbeatData C := fun _ => {}
  thumpersInUse : Nat := 0
  heartbeatTimers : Nat → Nat := fun _ => 0
  timerIndexArray : List Nat := []
  contexts : C → HeartbeatInfo := fun _ => {}
  running : Nat → Bool := fun _ => false

/-- What comes of a heartbeat. -/
inductive HeartbeatResult
  | ok | cancelled | failed
  deriving DecidableEq, Repr

namespace HeartbeatWatcher

variable [DecidableEq C] (w : HeartbeatWatcher C)

def setData (i : Nat) (d : HeartbeatData C) : HeartbeatWatcher C :=
  { w with heartbeatData := Function.update w.heartbeatData i d }

def setContext (c : C) (info : HeartbeatInfo) : HeartbeatWatcher C :=
  { w with contexts := Function.update w.contexts c info }

/-! ## Heartbeats -/

/-- `pb_strnlen_s` of a string that may be `NULL` is positive. -/
def hasText (s : Option Bytes) : Bool := decide (s.getD [] ≠ [])

/-- `heartbeat_thump`; the context has to be there (`PUBNUB_ASSERT_OPT`). -/
def heartbeatThump (pb : Option C) (i : Nat) (starts : Bool) : Option (HeartbeatWatcher C) :=
  pb.bind fun c =>
    match (w.heartbeatData i).heartbeatPb with
    | .absent => none
    | .busy => some w
    | .idle =>
        if (hasText (w.contexts c).channel || hasText (w.contexts c).channelGroup) && starts then
          some (w.setData i { w.heartbeatData i with heartbeatPb := .busy })
        else some w

/-- The beginning of `start_heartbeat_timer`: presence may have to be announced. -/
def announce (c : C) : HeartbeatWatcher C :=
  let info := w.contexts c
  w.setContext c { info with
    shouldAnnouncePresence := false
    waitingAnnouncePresence := info.shouldAnnouncePresence || info.waitingAnnouncePresence }

/-- The end of it: the timer is running. -/
def addTimer (i : Nat) : Option (HeartbeatWatcher C) :=
  if i < maxHeartbeatThumpers ∧ w.timerIndexArray.length < maxHeartbeatThumpers then
    some { w with
      heartbeatTimers :=
        Function.update w.heartbeatTimers i ((w.heartbeatData i).periodSec * 1000 % 2 ^ 64)
      timerIndexArray := w.timerIndexArray ++ [i]
      running := Function.update w.running i true }
  else none

/-- `start_heartbeat_timer`.  A timer that is started already is left alone without the smart
    heartbeat. -/
def startHeartbeatTimer (i : Nat) (starts : Bool) : Option (HeartbeatWatcher C) :=
  match (w.heartbeatData i).pb with
  | none => w.addTimer i
  | some c =>
      let smart := (w.contexts c).useSmartHeartbeat
      let thumped :=
        if (w.contexts c).shouldAnnouncePresence && !smart then
          (w.announce c).heartbeatThump (some c) i starts
        else some (w.announce c)
      thumped.bind fun w =>
        if 0 < w.heartbeatTimers i ∧ smart = false then
          some { w with running := Function.update w.running i true }
        else w.addTimer i

/-- `auto_heartbeat_stop_timer`. -/
def autoHeartbeatStopTimer (i : Nat) : Option (HeartbeatWatcher C) :=
  if i < maxHeartbeatThumpers then
    some { w with
      timerIndexArray := w.timerIndexArray.erase i
      running := Function.update w.running i false }
  else none

/-- `stop_heartbeat`.  A heartbeat that is waited for is cancelled instead. -/
def stopHeartbeat (i : Nat) : Option (HeartbeatWatcher C) :=
  match (w.heartbeatData i).heartbeatPb with
  | .absent => none
  | .idle => w.autoHeartbeatStopTimer i
  | .busy => some w

/-- `auto_heartbeat_callback`. -/
def autoHeartbeatCallback (i : Nat) (result : HeartbeatResult) (starts : Bool) :
    Option (HeartbeatWatcher C) :=
  let w := w.setData i { w.heartbeatData i with heartbeatPb := .idle }
  let pb := (w.heartbeatData i).pb
  match pb.filter fun c =>
      !(w.contexts c).useSmartHeartbeat && (w.contexts c).waitingAnnouncePresence with
  | some c => some (w.setContext c { w.contexts c with waitingAnnouncePresence := false })
  | none =>
      match result with
      | .ok => w.startHeartbeatTimer i starts
      | .failed => w.heartbeatThump pb i starts
      | .cancelled => some w

/-! ## Enabling and disabling -/

/-- `init_new_thumper_pb` for a seat that has no context yet, if there is memory. -/
def initNewThumperPb (i : Nat) (allocates : Bool) : Option (HeartbeatWatcher C) :=
  match (w.heartbeatData i).heartbeatPb with
  | .absent =>
      if allocates then some (w.setData i { w.heartbeatData i with heartbeatPb := .idle })
      else none
  | _ => some w

/-- `form_heartbeat_thumper`; whether it succeeds. -/
def formHeartbeatThumper (c : C) (allocates : Bool) : HeartbeatWatcher C × Bool :=
  if maxHeartbeatThumpers ≤ w.thumpersInUse then (w, false)
  else
    match (List.range maxHeartbeatThumpers).find? fun i => (w.heartbeatData i).pb.isNone with
    | none => (w, true)
    | some i =>
        match w.initNewThumperPb i allocates with
        | none => (w, false)
        | some w =>
            let w := w.setContext c { w.contexts c with thumperIndex := i }
            let w := w.setData i
              { w.heartbeatData i with pb := some c, periodSec := minHeartbeatPeriod }
            ({ w with thumpersInUse := w.thumpersInUse + 1 }, true)

/-- `pubnub_set_heartbeat_period`; the period has to be positive (`PUBNUB_ASSERT`). -/
def setHeartbeatPeriod (c : C) (periodSec : Nat) : Option (HeartbeatWatcher C) :=
  if periodSec = 0 then none
  else if (w.contexts c).thumperIndex = maxHeartbeatThumpers then some w
  else
    let i := (w.contexts c).thumperIndex
    some (w.setData i { w.heartbeatData i with periodSec := periodSec })

/-- `pubnub_enable_auto_heartbeat`. -/
def enableAutoHeartbeat (c : C) (periodSec : Nat) (allocates : Bool) :
    Option (HeartbeatWatcher C) :=
  if (w.contexts c).thumperIndex = maxHeartbeatThumpers then
    let (w, ok) := w.formHeartbeatThumper c allocates
    if ok then w.setHeartbeatPeriod c periodSec else some w
  else w.setHeartbeatPeriod c periodSec

/-- `release_thumper`; the counter is an `unsigned`. -/
def releaseThumper (i : Nat) : Option (HeartbeatWatcher C) :=
  if i < maxHeartbeatThumpers then
    let w := w.setData i { w.heartbeatData i with pb := none }
    { w with thumpersInUse := (w.thumpersInUse + 2 ^ 32 - 1) % 2 ^ 32 }.stopHeartbeat i
  else some w

/-- `pubnub_disable_auto_heartbeat`, for a context that does not make heartbeats for another. -/
def disableAutoHeartbeat (c : C) : Option (HeartbeatWatcher C) :=
  let i := (w.contexts c).thumperIndex
  if i = maxHeartbeatThumpers then some w
  else
    (w.releaseThumper i).map fun w =>
      w.setContext c { w.contexts c with thumperIndex := maxHeartbeatThumpers }

/-! ## Transactions -/

/-- A string that is kept is another one. -/
def differs (given kept : Option Bytes) : Bool := given.isSome && decide (kept ≠ given)

/-- `PUBNUB_MAX_OBJECT_LENGTH`. -/
def maxObjectLength : Nat := 30000

/-- `pbauto_heartbeat_prepare_channels_and_ch_groups`. -/
def prepareChannels (c : C) (channel channelGroup : Option Bytes) : HeartbeatWatcher C :=
  if channel = none ∧ channelGroup = none then w
  else
    let info := w.contexts c
    w.setContext c { info with
      shouldAnnouncePresence := info.shouldAnnouncePresence ||
        differs channel info.channel || differs channelGroup info.channelGroup
      channel := channel.map (·.take (maxObjectLength - 1))
      channelGroup := channelGroup.map (·.take (maxObjectLength - 1)) }

/-- `pbauto_heartbeat_transaction_ongoing`, for a subscribe or a heartbeat. -/
def transactionOngoing (c : C) : Option (HeartbeatWatcher C) :=
  let info := w.contexts c
  if info.thumperIndex ≠ maxHeartbeatThumpers ∧ info.useSmartHeartbeat = true then
    w.stopHeartbeat info.thumperIndex
  else some w

/-- `pbauto_heartbeat_start_timer`, after a subscribe or a heartbeat that has succeeded. -/
def startTimer (c : C) (starts : Bool) : Option (HeartbeatWatcher C) :=
  let i := (w.contexts c).thumperIndex
  if i ≠ maxHeartbeatThumpers then w.startHeartbeatTimer i starts else some w

/-! ## Timers -/

/-- A `size_t` less an `int`, as an `int`. -/
def remainsMs (left elapsed : Nat) : Int :=
  let remains : Nat := (left + 2 ^ 64 - elapsed) % 2 ^ 32
  if remains < 2 ^ 31 then (remains : Int) else (remains : Int) - 2 ^ 32

/-- A timer has expired, and is no longer in the array. -/
def expire (i : Nat) (allocates starts : Bool) : Option (HeartbeatWatcher C) :=
  let w := { w with
    heartbeatTimers := Function.update w.heartbeatTimers i 0
    running := Function.update w.running i false }
  let pb := (w.heartbeatData i).pb
  pb.bind fun _ =>
    match w.initNewThumperPb i allocates with
    | none => some w
    | some w => w.heartbeatThump pb i starts

/-- The loop of `handle_heartbeat_timers` over the array: which indices stay in it. -/
def handleLoop (elapsed : Nat) (allocates starts : Nat → Bool) :
    HeartbeatWatcher C → List Nat → Option (HeartbeatWatcher C × List Nat)
  | w, [] => some (w, [])
  | w, i :: indexes =>
      if remainsMs (w.heartbeatTimers i) elapsed ≤ 0 then
        (w.expire i (allocates i) (starts i)).bind fun w =>
          handleLoop elapsed allocates starts w indexes
      else
        let left := (remainsMs (w.heartbeatTimers i) elapsed).toNat
        (handleLoop elapsed allocates starts
            { w with heartbeatTimers := Function.update w.heartbeatTimers i left } indexes).map
          fun (w, kept) => (w, i :: kept)

/-- `handle_heartbeat_timers`. -/
def handleHeartbeatTimers (elapsed : Nat) (allocates starts : Nat → Bool) :
    Option (HeartbeatWatcher C) :=
  (handleLoop elapsed allocates starts w w.timerIndexArray).map fun (w, kept) =>
    { w with timerIndexArray := kept }

end HeartbeatWatcher

end PubNub
