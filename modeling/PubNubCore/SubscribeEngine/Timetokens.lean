import PubNubCore.Lib.CharArray
import PubNubCore.Lib.Machine
import PubNubCore.Replies.Subscribe

/-!
# The arrays with time tokens

`core.timetoken` and the `cursor.timetoken` of the contexts which the event engine passes between
its states, arrays of 20 bytes each, and everything that writes into them: the preparation of a
request, the parsers of the two subscribe replies, the reset after an error, and the functions of
the event engine that copy one of the arrays into another one.

A step is a call with what decides it elsewhere: the arguments and arrays of the caller, the
reply, which of the contexts is the current state's, and what a local array holds before it is
written.  So every run of the library is a run of this machine.  A step is `none` where it reads or
writes past the end of an array.  As long as the strings and the arrays of the callers have an end
within 20 bytes (`TimetokenClear`), there is no such step, and every array stays ended
(`timetokens_terminated`).
-/

namespace PubNub

/-- `char timetoken[20]`. -/
abbrev TimetokenArray := CharArray 20

/-- `pubnub_subscribe_cursor_t`. -/
structure PubnubSubscribeCursor where
  timetoken : TimetokenArray
  region : Int
  deriving DecidableEq

/-- The time token and the region of a context, and the cursors of the event engine's contexts in
    the order of their allocation. -/
structure Timetokens where
  timetoken : TimetokenArray
  region : Int
  contexts : List PubnubSubscribeCursor

/-! ## Cursors -/

/-- `pubnub_subscribe_cursor`; `memory` is what its local array holds before. -/
def pubnubSubscribeCursor (memory : TimetokenArray) (timetoken : Option Bytes) :
    Option PubnubSubscribeCursor :=
  match timetoken with
  | some timetoken => (memory.setString (cString timetoken)).map fun array => ⟨array, 0⟩
  | none => (memory.setString (ascii "0")).map fun array => ⟨array, 0⟩

/-- The first byte of an array. -/
def CharArray.first (a : TimetokenArray) : UInt8 := a.bytes.getD 0 0

namespace Timetokens

variable (s : Timetokens)

/-- `p->timetoken[0] = '0'; p->timetoken[1] = '\0';`. -/
def reset : Option Timetokens :=
  (s.timetoken.setString (ascii "0")).map fun array => { s with timetoken := array }

/-! ## Preparing a request -/

/-- In `pbcc_subscribe_v2_prep`: a time token of the options that is not empty is copied. -/
def takeTimetoken (timetoken : TimetokenArray) : Option Timetokens :=
  if timetoken.first = 0 then some s
  else timetoken.string.bind fun text =>
    (s.timetoken.setString text).map fun array => { s with timetoken := array }

/-- In `pbcc_subscribe_v2_prep`: an empty time token becomes zero. -/
def defaultTimetoken : Option Timetokens :=
  if s.timetoken.first = 0 then s.reset else some s

/-- `pbcc_subscribe_v2_prep`, as far as it has to do with the time token; `unread` is whether there
    are messages that have not been read.  At the end the time token is printed into the URL. -/
def pbccSubscribeV2Prep (channel channelGroup : Option Bytes) (unread : Bool)
    (timetoken : TimetokenArray) : Option Timetokens :=
  if channel = none ∧ channelGroup = none then some s
  else if unread then some s
  else (s.takeTimetoken timetoken).bind fun s =>
    s.defaultTimetoken.bind fun s => s.timetoken.string.map fun _ => s

/-- `pbcc_subscribe_prep` and `pubnub_subscribe_with_state`, which print the time token. -/
def pbccSubscribePrep (channel channelGroup : Option Bytes) (unread : Bool) : Option Timetokens :=
  if channel = none ∧ channelGroup = none then some s
  else if unread then some s
  else s.timetoken.string.map fun _ => s

/-- `pbcc_leave_prep`. -/
def pbccLeavePrep (channel channelGroup : Option Bytes) : Option Timetokens :=
  if channel = none ∧ channelGroup = none then some s else s.reset

/-! ## Replies -/

/-- What `pbcc_parse_subscribe_response` writes into `p->timetoken`. -/
def pbccParseSubscribeTimetoken (r : Reply) : Option Timetokens :=
  if r.replylen < 2 ∨ r.denied = true ∨ r.fieldIs (ascii "status") (ascii "400") = true then some s
  else match r.lastArguments with
    | .found a =>
        let timetoken := if 20 ≤ a.timeTokenLength then s.timetoken.write 0 [0]
          else s.timetoken.write 0 (a.httpReply.text (a.i + 1) (a.previous + 1))
        timetoken.map fun array => { s with timetoken := array }
    | _ => some s

/-- What `pbcc_parse_subscribe_v2_response` writes into `p->timetoken` and `p->region`. -/
def pbccParseSubscribeV2Timetoken (r : Reply) : Option Timetokens :=
  let parsed := pbccParseSubscribeV2Response r
  match parsed.timetoken with
  | none => some s
  | some text =>
      (s.timetoken.setString text).map fun array =>
        { s with timetoken := array, region := parsed.region.getD s.region }

/-- The entry of `m_aParseResponse` for a transaction.  No other parser has to do with the time
    token. -/
def parseResponse (transaction : Pbtt) (r : Reply) : Option Timetokens :=
  match transaction with
  | .subscribe => s.pbccParseSubscribeTimetoken r
  | .subscribeV2 => s.pbccParseSubscribeV2Timetoken r
  | _ => some s

/-- `PBNTF_TRANS_OUTCOME_COMMON`. -/
def transOutcome (rslt : PubnubRes) : Option Timetokens :=
  if rslt.resetsTimetoken then s.reset else some s

/-! ## The event engine -/

/-- The cursor of the context that `pbcc_subscribe_ee_event_alloc_` makes: the one it is given, or
    the one of the current state's context. -/
def allocated (fresh : PubnubSubscribeCursor) (current : Option Nat)
    (cursor : Option PubnubSubscribeCursor) : PubnubSubscribeCursor :=
  cursor.getD ((current.bind fun i => s.contexts[i]?).getD fresh)

/-- `pbcc_subscribe_ee_event_alloc_`. -/
def eventAlloc (memory : TimetokenArray) (current : Option Nat)
    (cursor : Option PubnubSubscribeCursor) : Option Timetokens :=
  (pubnubSubscribeCursor memory none).map fun fresh =>
    { s with contexts := s.contexts ++ [s.allocated fresh current cursor] }

/-- `pbcc_subscribe_ee_subscribe_`: the cursor of the caller counts if it does not begin with a
    zero digit. -/
def subscribe (memory : TimetokenArray) (current : Option Nat)
    (cursor : Option PubnubSubscribeCursor) : Option Timetokens :=
  s.eventAlloc memory current (cursor.filter fun cursor => cursor.timetoken.first != 48)

/-- `pubnub_reconnect` with `pbcc_subscribe_ee_reconnect`; whether the state can be reconnected is an
    argument. -/
def reconnect (memory : TimetokenArray) (current : Option Nat) (reconnectable : Bool)
    (cursor : Option PubnubSubscribeCursor) : Option Timetokens :=
  (cursor.orElse fun _ => pubnubSubscribeCursor memory none).bind fun cursor =>
    if reconnectable then s.eventAlloc memory current (some cursor) else some s

/-- The end of `pbcc_subscribe_callback_` after a success. -/
def subscribeCallback (memory : TimetokenArray) (current : Option Nat) : Option Timetokens := do
  let text ← s.timetoken.string
  let timetoken ← memory.setString text
  let region := if 0 < s.region then s.region else 0
  s.eventAlloc memory current (some ⟨timetoken, region⟩)

/-- `pubnub_subscribe_v2_defopts().timetoken`. -/
def defopts (memory : TimetokenArray) : Option TimetokenArray := memory.write 0 [0]

/-- The end of `make_subscribe_request_`; `started` is whether `pubnub_subscribe_v2` can start a
    transaction. -/
def makeSubscribeRequest (memory : TimetokenArray) (context : PubnubSubscribeCursor)
    (channel channelGroup : Option Bytes) (started unread : Bool) : Option Timetokens := do
  let text ← context.timetoken.string
  let timetoken ← s.timetoken.setString text
  let s : Timetokens := { s with timetoken := timetoken, region := context.region }
  let opts ← defopts memory
  if started then s.pbccSubscribeV2Prep channel channelGroup unread opts else some s

end Timetokens

/-! ## Runs -/

/-- The calls that have to do with time tokens.  `eventAlloc` stands for the events without a
    cursor. -/
inductive TimetokenCall
  | pbccInit
  | subscribeCursor (memory : TimetokenArray) (timetoken : Option Bytes)
  | subscribeV2 (channel channelGroup : Option Bytes) (unread : Bool) (timetoken : TimetokenArray)
  | subscribeV1 (channel channelGroup : Option Bytes) (unread : Bool)
  | leave (channel channelGroup : Option Bytes)
  | parseResponse (transaction : Pbtt) (r : Reply)
  | transOutcome (rslt : PubnubRes)
  | lastTimeToken
  | subscribe (memory : TimetokenArray) (current : Option Nat)
      (cursor : Option PubnubSubscribeCursor)
  | reconnect (memory : TimetokenArray) (current : Option Nat) (reconnectable : Bool)
      (cursor : Option PubnubSubscribeCursor)
  | eventAlloc (memory : TimetokenArray) (current : Option Nat)
  | subscribeCallback (memory : TimetokenArray) (current : Option Nat)
  | makeSubscribeRequest (memory : TimetokenArray) (context : Nat)
      (channel channelGroup : Option Bytes) (started unread : Bool)

/-- One call; `none` if an array is read or written past its end. -/
def timetokenStep (s : Timetokens) : TimetokenCall → Option Timetokens
  | .pbccInit => s.reset
  | .subscribeCursor memory timetoken => (pubnubSubscribeCursor memory timetoken).map fun _ => s
  | .subscribeV2 channel channelGroup unread timetoken =>
      s.pbccSubscribeV2Prep channel channelGroup unread timetoken
  | .subscribeV1 channel channelGroup unread => s.pbccSubscribePrep channel channelGroup unread
  | .leave channel channelGroup => s.pbccLeavePrep channel channelGroup
  | .parseResponse transaction r => s.parseResponse transaction r
  | .transOutcome rslt => s.transOutcome rslt
  | .lastTimeToken => s.timetoken.string.map fun _ => s
  | .subscribe memory current cursor => s.subscribe memory current cursor
  | .reconnect memory current reconnectable cursor =>
      s.reconnect memory current reconnectable cursor
  | .eventAlloc memory current => s.eventAlloc memory current none
  | .subscribeCallback memory current => s.subscribeCallback memory current
  | .makeSubscribeRequest memory context channel channelGroup started unread =>
      match s.contexts[context]? with
      | none => some s
      | some context =>
          s.makeSubscribeRequest memory context channel channelGroup started unread

/-- A context after `pbcc_init`, which leaves the region and the rest of the array as they are. -/
def timetokenMachine (memory : TimetokenArray) (region : Int) :
    Machine Timetokens TimetokenCall where
  init := ⟨⟨48 :: 0 :: memory.bytes.drop 2, by simp [memory.length_bytes]⟩, region, []⟩
  step := timetokenStep

/-- All arrays are ended. -/
def Timetokens.Terminated (s : Timetokens) : Prop :=
  s.timetoken.Terminated ∧ ∀ cursor ∈ s.contexts, cursor.timetoken.Terminated

/-- What comes from the caller and is looked at has an end within 20 bytes. -/
def TimetokenClear : TimetokenCall → Prop
  | .subscribeCursor _ timetoken => (cString (timetoken.getD [])).length < 20
  | .subscribeV2 channel channelGroup unread timetoken =>
      channel = none ∧ channelGroup = none ∨ unread = true ∨ timetoken.Terminated
  | .subscribe _ _ cursor => (cursor.all fun cursor =>
      cursor.timetoken.first == 48 || decide cursor.timetoken.Terminated) = true
  | .reconnect _ _ reconnectable cursor => reconnectable = true →
      (cursor.all fun cursor => decide cursor.timetoken.Terminated) = true
  | _ => True

instance : ∀ call, Decidable (TimetokenClear call)
  | .subscribeCursor _ timetoken =>
      inferInstanceAs (Decidable ((cString (timetoken.getD [])).length < 20))
  | .subscribeV2 channel channelGroup unread timetoken => inferInstanceAs (Decidable
      (channel = none ∧ channelGroup = none ∨ unread = true ∨ timetoken.Terminated))
  | .subscribe _ _ cursor => inferInstanceAs (Decidable ((cursor.all fun cursor =>
      cursor.timetoken.first == 48 || decide cursor.timetoken.Terminated) = true))
  | .reconnect _ _ reconnectable cursor => inferInstanceAs (Decidable (reconnectable = true →
      (cursor.all fun cursor => decide cursor.timetoken.Terminated) = true))
  | .pbccInit | .subscribeV1 _ _ _ | .leave _ _ | .parseResponse _ _ | .transOutcome _
  | .lastTimeToken | .eventAlloc _ _ | .subscribeCallback _ _
  | .makeSubscribeRequest _ _ _ _ _ _ => inferInstanceAs (Decidable True)

/-! ## Every array stays ended -/

/-- An array that begins with a zero is ended. -/
lemma CharArray.terminated_of_first {a : TimetokenArray} (h : a.first = 0) : a.Terminated := by
  have hlength := a.length_bytes
  rw [first] at h
  rw [Terminated]
  cases hbytes : a.bytes with
  | nil => simp [hbytes] at hlength
  | cons b bytes =>
      rw [hbytes, List.getD_cons_zero] at h
      exact h ▸ List.mem_cons_self

namespace Timetokens

variable {s s' : Timetokens} {memory : TimetokenArray} {cursor : Option PubnubSubscribeCursor}
  {current : Option Nat} {r : Reply}

lemma Terminated.setTimetoken (h : s.Terminated) {array : TimetokenArray} {region : Int}
    (harray : array.Terminated) : Terminated ⟨array, region, s.contexts⟩ := ⟨harray, h.2⟩

lemma Terminated.reset (h : s.Terminated) : ∃ s', s.reset = some s' ∧ s'.Terminated := by
  obtain ⟨array, hset, harray⟩ := s.timetoken.exists_setString (s := ascii "0") (by decide)
  exact ⟨_, by rw [Timetokens.reset, hset]; rfl, h.setTimetoken harray⟩

lemma exists_pubnubSubscribeCursor (memory : TimetokenArray) :
    ∃ cursor, pubnubSubscribeCursor memory none = some cursor ∧ cursor.timetoken.Terminated := by
  obtain ⟨array, hset, harray⟩ := memory.exists_setString (s := ascii "0") (by decide)
  exact ⟨⟨array, 0⟩, by rw [pubnubSubscribeCursor, hset]; rfl, harray⟩

lemma Terminated.takeTimetoken (h : s.Terminated) {timetoken : TimetokenArray}
    (hc : timetoken.Terminated) :
    ∃ s', s.takeTimetoken timetoken = some s' ∧ s'.Terminated := by
  rw [Timetokens.takeTimetoken]
  split
  · exact ⟨s, rfl, h⟩
  · have hstring := CharArray.string_eq hc
    obtain ⟨array, hset, harray⟩ := s.timetoken.exists_setString (CharArray.length_string hstring)
    exact ⟨_, by rw [hstring, Option.bind_some, hset, Option.map_some], h.setTimetoken harray⟩

lemma Terminated.defaultTimetoken (h : s.Terminated) :
    ∃ s', s.defaultTimetoken = some s' ∧ s'.Terminated := by
  rw [Timetokens.defaultTimetoken]
  split
  · exact h.reset
  · exact ⟨s, rfl, h⟩

lemma Terminated.pbccSubscribeV2Prep (h : s.Terminated) {channel channelGroup : Option Bytes}
    {unread : Bool} {timetoken : TimetokenArray}
    (hc : channel = none ∧ channelGroup = none ∨ unread = true ∨ timetoken.Terminated) :
    ∃ s', s.pbccSubscribeV2Prep channel channelGroup unread timetoken = some s' ∧
      s'.Terminated := by
  rw [Timetokens.pbccSubscribeV2Prep]
  by_cases hchannel : channel = none ∧ channelGroup = none
  · exact ⟨s, if_pos hchannel, h⟩
  rw [if_neg hchannel]
  by_cases hunread : unread = true
  · exact ⟨s, if_pos hunread, h⟩
  rw [if_neg hunread]
  have hend := (hc.resolve_left hchannel).resolve_left hunread
  obtain ⟨s₁, htake, h₁⟩ := h.takeTimetoken hend
  obtain ⟨s₂, hdefault, h₂⟩ := h₁.defaultTimetoken
  refine ⟨s₂, ?_, h₂⟩
  rw [htake, Option.bind_some, hdefault, Option.bind_some, CharArray.string_eq h₂.1,
    Option.map_some]

lemma Terminated.pbccSubscribePrep (h : s.Terminated) (channel channelGroup : Option Bytes)
    (unread : Bool) :
    ∃ s', s.pbccSubscribePrep channel channelGroup unread = some s' ∧ s'.Terminated := by
  refine ⟨s, ?_, h⟩
  rw [Timetokens.pbccSubscribePrep, CharArray.string_eq h.1]
  split
  · rfl
  · split <;> rfl

/-! ### Replies -/

/-- What is taken for the time token has an end behind its beginning. -/
lemma found_lt {a : SubscribeArguments} (h : r.lastArguments = .found a) : a.i < a.previous := by
  rw [Reply.lastArguments] at h
  dsimp only at h
  split at h
  · cases h
  split at h
  · cases h
  rename_i hi
  have hlt := findStringStart_lt (Int.not_lt.mp hi)
  split at h
  · split at h
    · cases h
    rename_i hj
    have hlt' := findStringStart_lt (Int.not_lt.mp hj)
    split at h
    · split at h
      · cases h
      · rename_i hk
        have hlt'' := findStringStart_lt (Int.not_lt.mp hk)
        cases h
        exact hlt''
    · cases h
      exact hlt'
  · cases h
    exact hlt

lemma Terminated.pbccParseSubscribeTimetoken (h : s.Terminated) (r : Reply) :
    ∃ s', s.pbccParseSubscribeTimetoken r = some s' ∧ s'.Terminated := by
  rw [Timetokens.pbccParseSubscribeTimetoken]
  split
  · exact ⟨s, rfl, h⟩
  cases hfound : r.lastArguments with
  | absent => exact ⟨s, rfl, h⟩
  | onlyChannels httpReply => exact ⟨s, rfl, h⟩
  | onlyGroups httpReply chan => exact ⟨s, rfl, h⟩
  | found a =>
      have hlt := found_lt hfound
      have hend := (Reply.found_plain hfound).1
      have hwritten : ∃ array, (if 20 ≤ a.timeTokenLength then s.timetoken.write 0 [0]
          else s.timetoken.write 0 (a.httpReply.text (a.i + 1) (a.previous + 1))) = some array ∧
          array.Terminated := by
        by_cases hlong : 20 ≤ a.timeTokenLength
        · obtain ⟨array, hwrite⟩ := Option.isSome_iff_exists.mp
            (CharArray.isSome_write (a := s.timetoken) (i := 0) (s := [0]).mpr (by decide))
          exact ⟨array, by rw [if_pos hlong, hwrite],
            CharArray.terminated_write hwrite (List.mem_singleton_self 0)⟩
        · have hlength : (a.httpReply.text (a.i + 1) (a.previous + 1)).length =
              (a.previous + 1 - (a.i + 1)).toNat := by simp [Memory.text]
          have hzero : 0 ∈ a.httpReply.text (a.i + 1) (a.previous + 1) := by
            refine List.mem_map.mpr ⟨(a.previous - (a.i + 1)).toNat, ?_, ?_⟩
            · rw [List.mem_range]
              omega
            · have hplace : a.i + 1 + ((a.previous - (a.i + 1)).toNat : Int) = a.previous := by
                omega
              rw [hplace, hend]
          rw [SubscribeArguments.timeTokenLength] at hlong
          obtain ⟨array, hwrite⟩ := Option.isSome_iff_exists.mp
            (CharArray.isSome_write (a := s.timetoken) (i := 0)
              (s := a.httpReply.text (a.i + 1) (a.previous + 1)).mpr (by omega))
          exact ⟨array, by rw [if_neg (by rwa [SubscribeArguments.timeTokenLength]), hwrite],
            CharArray.terminated_write hwrite hzero⟩
      obtain ⟨array, hwritten, harray⟩ := hwritten
      refine ⟨⟨array, s.region, s.contexts⟩, ?_, h.setTimetoken harray⟩
      simp only
      rw [hwritten]
      rfl

/-- What is read between two quotes less than 20 bytes apart. -/
lemma length_between (m : Memory) (s e : Int) (h : ¬ 20 ≤ e - s - 2) :
    (m.text (s + 1) (e - 1)).length < 20 := by
  simp only [Memory.text, List.length_map, List.length_range]
  omega

/-- What the result of the second subscribe has of a time token. -/
def timetokenOf : Except (PubnubRes × Option Bytes) (Bytes × Int) → Option Bytes
  | .error (_, timetoken) => timetoken
  | .ok (timetoken, _) => some timetoken

/-- The time token of the second subscribe is shorter than the array. -/
lemma length_timetokenOf {text : Bytes} (h : timetokenOf r.timetokenAndRegion = some text) :
    text.length < 20 := by
  -- the functions are unfolded rather than their values, which the kernel would evaluate
  obtain ⟨f, hf⟩ : ∃ f, f = Reply.timetokenAndRegion := ⟨_, rfl⟩
  rw [← hf] at h
  delta Reply.timetokenAndRegion at hf
  subst hf
  beta_reduce at h
  generalize pbjsonGetObjectValue r.memory r.whole (ascii "t") = outer at h
  rcases outer with e | found
  · cases h
  dsimp only at h
  generalize pbjsonGetObjectValue r.memory found (ascii "t") = inner at h
  rcases inner with e | titel
  · cases h
  dsimp only at h
  generalize pbjsonGetObjectValue r.memory found (ascii "r") = region at h
  split_ifs at h with hquotes hlong
  · cases h
  · cases h
  have hlength := length_between r.memory _ _ hlong
  rcases region with e | region
  · rw [← Option.some.inj h]
    exact hlength
  · rw [← Option.some.inj h]
    exact hlength
lemma length_timetoken {text : Bytes}
    (h : (pbccParseSubscribeV2Response r).timetoken = some text) : text.length < 20 := by
  refine length_timetokenOf (r := r) ?_
  obtain ⟨f, hf⟩ : ∃ f, f = pbccParseSubscribeV2Response := ⟨_, rfl⟩
  rw [← hf] at h
  delta pbccParseSubscribeV2Response at hf
  subst hf
  beta_reduce at h
  generalize pbjsonGetObjectValue r.memory r.whole (ascii "m") = message at h
  generalize r.timetokenAndRegion = read at h ⊢
  split_ifs at h
  · cases h
  · cases h
  · cases h
  · cases h
  rcases read with ⟨rslt, timetoken⟩ | ⟨timetoken, region⟩
  · exact h
  · rcases message with e | found
    · exact h
    · exact h

lemma Terminated.pbccParseSubscribeV2Timetoken (h : s.Terminated) (r : Reply) :
    ∃ s', s.pbccParseSubscribeV2Timetoken r = some s' ∧ s'.Terminated := by
  rw [Timetokens.pbccParseSubscribeV2Timetoken]
  cases htext : (pbccParseSubscribeV2Response r).timetoken with
  | none => exact ⟨s, rfl, h⟩
  | some text =>
      obtain ⟨array, hset, harray⟩ := s.timetoken.exists_setString (length_timetoken htext)
      refine ⟨⟨array, (pbccParseSubscribeV2Response r).region.getD s.region, s.contexts⟩, ?_,
        h.setTimetoken harray⟩
      dsimp only
      rw [hset, Option.map_some]

/-! ### The event engine -/

lemma Terminated.allocated (h : s.Terminated) {fresh : PubnubSubscribeCursor}
    (hfresh : fresh.timetoken.Terminated) (hc : ∀ c, cursor = some c → c.timetoken.Terminated) :
    (s.allocated fresh current cursor).timetoken.Terminated := by
  rw [Timetokens.allocated]
  cases hcursor : cursor with
  | some c => exact hc c hcursor
  | none =>
      rw [Option.getD_none]
      cases hcontext : current.bind fun i => s.contexts[i]? with
      | none => exact hfresh
      | some context =>
          obtain ⟨i, -, hi⟩ := Option.bind_eq_some_iff.mp hcontext
          exact h.2 context (List.mem_of_getElem? hi)

lemma Terminated.eventAlloc (h : s.Terminated) (memory : TimetokenArray) (current : Option Nat)
    (hc : ∀ c, cursor = some c → c.timetoken.Terminated) :
    ∃ s', s.eventAlloc memory current cursor = some s' ∧ s'.Terminated := by
  obtain ⟨fresh, hfresh, hterminated⟩ := exists_pubnubSubscribeCursor memory
  refine ⟨{ s with contexts := s.contexts ++ [s.allocated fresh current cursor] }, ?_, h.1, ?_⟩
  · rw [Timetokens.eventAlloc, hfresh, Option.map_some]
  · intro c hmem
    rcases List.mem_append.mp hmem with hmem | hmem
    · exact h.2 c hmem
    · rw [List.mem_singleton.mp hmem]
      exact h.allocated hterminated hc

/-- The cursor of an event ends up in its context. -/
lemma mem_eventAlloc {c : PubnubSubscribeCursor}
    (h : s.eventAlloc memory current (some c) = some s') : c ∈ s'.contexts := by
  obtain ⟨fresh, -, rfl⟩ := Option.map_eq_some_iff.mp h
  simp [Timetokens.allocated]

lemma Terminated.reconnect (h : s.Terminated) {reconnectable : Bool}
    (hc : reconnectable = true → ∀ c, cursor = some c → c.timetoken.Terminated) :
    ∃ s', s.reconnect memory current reconnectable cursor = some s' ∧ s'.Terminated := by
  obtain ⟨fresh, hfresh, hterminated⟩ := exists_pubnubSubscribeCursor memory
  obtain ⟨c, hcursor, hend⟩ : ∃ c,
      (cursor.orElse fun _ => pubnubSubscribeCursor memory none) = some c ∧
        (reconnectable = true → c.timetoken.Terminated) := by
    cases cursor with
    | none => exact ⟨fresh, hfresh, fun _ => hterminated⟩
    | some c => exact ⟨c, rfl, fun hreconnectable => hc hreconnectable c rfl⟩
  rw [Timetokens.reconnect, hcursor, Option.bind_some]
  split
  · rename_i hreconnectable
    refine h.eventAlloc memory current ?_
    rintro c ⟨⟩
    exact hend hreconnectable
  · exact ⟨s, rfl, h⟩

lemma Terminated.subscribeCallback (h : s.Terminated) (memory : TimetokenArray)
    (current : Option Nat) :
    ∃ s', s.subscribeCallback memory current = some s' ∧ s'.Terminated := by
  have hstring := CharArray.string_eq h.1
  obtain ⟨array, hset, harray⟩ := memory.exists_setString (CharArray.length_string hstring)
  have hcursor : ∀ c : PubnubSubscribeCursor,
      some ⟨array, if 0 < s.region then s.region else 0⟩ = some c → c.timetoken.Terminated := by
    rintro c ⟨⟩
    exact harray
  obtain ⟨s', heq, h'⟩ := h.eventAlloc memory current hcursor
  refine ⟨s', ?_, h'⟩
  rw [Timetokens.subscribeCallback, hstring]
  simp only [Option.bind_eq_bind, Option.bind_some]
  rw [hset, Option.bind_some, heq]

lemma Terminated.makeSubscribeRequest (h : s.Terminated) (memory : TimetokenArray)
    {context : PubnubSubscribeCursor} (hcontext : context.timetoken.Terminated)
    (channel channelGroup : Option Bytes) (started unread : Bool) :
    ∃ s', s.makeSubscribeRequest memory context channel channelGroup started unread = some s' ∧
      s'.Terminated := by
  have hstring := CharArray.string_eq hcontext
  obtain ⟨array, hset, harray⟩ := s.timetoken.exists_setString (CharArray.length_string hstring)
  obtain ⟨opts, hopts⟩ := Option.isSome_iff_exists.mp
    (CharArray.isSome_write (a := memory) (i := 0) (s := [0]).mpr (by decide))
  have h₁ : Terminated ⟨array, context.region, s.contexts⟩ := h.setTimetoken harray
  rw [Timetokens.makeSubscribeRequest, hstring]
  simp only [Option.bind_eq_bind, Option.bind_some]
  rw [hset, Option.bind_some, defopts, hopts, Option.bind_some]
  cases started with
  | true =>
      exact Terminated.pbccSubscribeV2Prep h₁
        (.inr (.inr (CharArray.terminated_write hopts (List.mem_singleton_self 0))))
  | false => exact ⟨_, rfl, h₁⟩

/-! ### All calls -/

lemma Terminated.step (h : s.Terminated) {call : TimetokenCall} (hc : TimetokenClear call) :
    ∃ s', timetokenStep s call = some s' ∧ s'.Terminated := by
  cases call with
  | pbccInit => exact h.reset
  | subscribeCursor memory timetoken =>
      cases timetoken with
      | none =>
          obtain ⟨cursor, hcursor, -⟩ := exists_pubnubSubscribeCursor memory
          exact ⟨s, by rw [timetokenStep, hcursor]; rfl, h⟩
      | some timetoken =>
          obtain ⟨array, hset, -⟩ := memory.exists_setString (s := cString timetoken) hc
          exact ⟨s, by rw [timetokenStep, pubnubSubscribeCursor, hset]; rfl, h⟩
  | subscribeV2 channel channelGroup unread timetoken => exact h.pbccSubscribeV2Prep hc
  | subscribeV1 channel channelGroup unread => exact h.pbccSubscribePrep channel channelGroup unread
  | leave channel channelGroup =>
      rw [timetokenStep, pbccLeavePrep]
      split
      · exact ⟨s, rfl, h⟩
      · exact h.reset
  | parseResponse transaction r =>
      cases transaction with
      | subscribe => exact h.pbccParseSubscribeTimetoken r
      | subscribeV2 => exact h.pbccParseSubscribeV2Timetoken r
      | _ => exact ⟨s, rfl, h⟩
  | transOutcome rslt =>
      rw [timetokenStep, transOutcome]
      split
      · exact h.reset
      · exact ⟨s, rfl, h⟩
  | lastTimeToken =>
      exact ⟨s, by rw [timetokenStep, CharArray.string_eq h.1]; rfl, h⟩
  | subscribe memory current cursor =>
      refine h.eventAlloc memory current fun c hcursor => ?_
      obtain ⟨rfl, hfirst⟩ := Option.filter_eq_some_iff.mp hcursor
      simp only [TimetokenClear, Option.all_some, Bool.or_eq_true, beq_iff_eq,
        decide_eq_true_eq] at hc
      exact hc.resolve_left (by simpa using hfirst)
  | reconnect memory current reconnectable cursor =>
      refine h.reconnect fun hreconnectable c hcursor => ?_
      have hall := hc hreconnectable
      rw [hcursor, Option.all_some] at hall
      exact of_decide_eq_true hall
  | eventAlloc memory current => exact h.eventAlloc memory current (by simp)
  | subscribeCallback memory current => exact h.subscribeCallback memory current
  | makeSubscribeRequest memory context channel channelGroup started unread =>
      rw [timetokenStep]
      cases hcontext : s.contexts[context]? with
      | none => exact ⟨s, rfl, h⟩
      | some c =>
          exact h.makeSubscribeRequest memory (h.2 c (List.mem_of_getElem? hcontext)) channel
            channelGroup started unread

/-- Nothing else keeps the arrays ended. -/
lemma clear_of_step {call : TimetokenCall} (hst : timetokenStep s call = some s')
    (h' : s'.Terminated) : TimetokenClear call := by
  cases call with
  | subscribeCursor memory timetoken =>
      cases timetoken with
      | none => exact Nat.succ_pos _
      | some timetoken =>
          obtain ⟨cursor, hcursor, -⟩ := Option.map_eq_some_iff.mp hst
          obtain ⟨array, hset, -⟩ := Option.map_eq_some_iff.mp hcursor
          have hsome : (memory.setString (cString timetoken)).isSome = true := by rw [hset]; rfl
          exact CharArray.isSome_setString.mp hsome
  | subscribeV2 channel channelGroup unread timetoken =>
      by_cases hchannel : channel = none ∧ channelGroup = none
      · exact .inl hchannel
      by_cases hunread : unread = true
      · exact .inr (.inl hunread)
      refine .inr (.inr ?_)
      by_cases hfirst : timetoken.first = 0
      · exact CharArray.terminated_of_first hfirst
      · rw [timetokenStep, Timetokens.pbccSubscribeV2Prep, if_neg hchannel, if_neg hunread,
          Timetokens.takeTimetoken, if_neg hfirst] at hst
        refine CharArray.isSome_string.mp ?_
        cases hstring : timetoken.string with
        | none => simp [hstring] at hst
        | some text => rfl
  | subscribe memory current cursor =>
      cases cursor with
      | none => rfl
      | some c =>
          rw [TimetokenClear, Option.all_some, Bool.or_eq_true, beq_iff_eq, decide_eq_true_eq]
          by_cases hfirst : c.timetoken.first = 48
          · exact .inl hfirst
          · rw [timetokenStep, Timetokens.subscribe,
              Option.filter_some_pos (by simpa using hfirst)] at hst
            exact .inr (h'.2 c (mem_eventAlloc hst))
  | reconnect memory current reconnectable cursor =>
      intro hreconnectable
      cases cursor with
      | none => rfl
      | some c =>
          rw [timetokenStep, Timetokens.reconnect, hreconnectable] at hst
          rw [Option.all_some]
          exact decide_eq_true (h'.2 c (mem_eventAlloc hst))
  | _ => trivial

end Timetokens

/-- **Every time token is ended.**  In a run in which what comes from the callers has an end within
    20 bytes, all arrays are ended, and no call reads or writes past the end of one; and a call
    keeps that if and only if its arguments have such an end. -/
theorem timetokens_terminated (memory : TimetokenArray) (region : Int) (s : Timetokens)
    (hr : (timetokenMachine memory region).Reachable (fun _ call => TimetokenClear call) s) :
    s.Terminated ∧ ∀ call,
      (∃ s', timetokenStep s call = some s' ∧ s'.Terminated) ↔ TimetokenClear call := by
  have h : s.Terminated := by
    refine hr.invariant (P := Timetokens.Terminated) ⟨by simp [timetokenMachine, CharArray.Terminated],
      by simp [timetokenMachine]⟩ fun s call s' h hc hst => ?_
    obtain ⟨t, hstep, ht⟩ := h.step hc
    rw [show (timetokenMachine memory region).step s call = timetokenStep s call from rfl,
      hstep] at hst
    cases hst
    exact ht
  refine ⟨h, fun call => ⟨?_, h.step⟩⟩
  rintro ⟨s', hst, h'⟩
  exact Timetokens.clear_of_step hst h'

/-! ## A cursor of the caller -/

/-- An array of zeros. -/
def zeros : TimetokenArray := ⟨List.replicate 20 0, by decide⟩

/-- A time token of 19 digits, which is the longest there is room for. -/
def nineteenDigits : Bytes := ascii "1234567890123456789"

/-- It comes back from the server and goes into the next request. -/
theorem timetokens_terminated_nineteenDigits : ∃ s : Timetokens,
    s.timetoken.string = some nineteenDigits ∧ s.Terminated := by
  obtain ⟨s, hr, hs⟩ := (timetokenMachine zeros 0).exists_reachable_of_replay
    (G := fun _ call => TimetokenClear call) (fun _ call => decide (TimetokenClear call))
    [.subscribeCursor zeros nineteenDigits,
      .subscribe zeros none (some ⟨⟨nineteenDigits ++ [0], by decide⟩, 3⟩),
      .makeSubscribeRequest zeros 0 (some (ascii "a")) none true false]
    (fun s => s.timetoken.string == some nineteenDigits) (fun _ _ => of_decide_eq_true)
    (by decide +kernel)
  exact ⟨s, by simpa using hs, (timetokens_terminated zeros 0 s hr).1⟩

/-- **A cursor is written past its end.**  The time token of the caller has 20 digits, and its end
    is written behind the array; with 21 digits the last of them is as well. -/
theorem timetokens_not_always_terminated :
    timetokenStep (timetokenMachine zeros 0).init
      (.subscribeCursor zeros (some (nineteenDigits ++ ascii "0"))) = none ∧
    ¬ ∀ s : Timetokens, (timetokenMachine zeros 0).Reachable Machine.anyStep s →
      ∀ call, (timetokenStep s call).isSome = true := by
  have hnone : timetokenStep (timetokenMachine zeros 0).init
      (.subscribeCursor zeros (some (nineteenDigits ++ ascii "0"))) = none := by decide +kernel
  refine ⟨hnone, fun hall => ?_⟩
  have hsome := hall _ .init (.subscribeCursor zeros (some (nineteenDigits ++ ascii "0")))
  rw [hnone] at hsome
  cases hsome

end PubNub
