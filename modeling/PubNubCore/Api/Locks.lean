import PubNubCore.Api.Verbs

/-!
# The monitor of a context

Every function takes the monitor of the context, which a thread may take again while it holds it,
and has to give it back wherever it returns.  What happens to it is written down in the ledger of
the context; `monitorPath` is what one call adds to that.  Around the calls there are the functions
that run the state machine, from whose inside the callbacks of the user and of the engine call the
library again: `MonitorPath` puts all of them together.

**What goes wrong.**  The functions that note their channels for the automatic heartbeat return
without giving the monitor back if that fails, and so does `pubnub_publish_ex` if it cannot encrypt
the message.  `pubnub_await` does the same on a context with callbacks.
-/

namespace PubNub

open LockEvent

/-! ## The state machine -/

/-- `pbnc_fsm`, and what happens on the way when a transaction ends. -/
def pbncFsm (outcomes : List LockEvent) : List LockEvent := [.access] ++ outcomes ++ [.access]

lemma adds_pbncFsm {m : Nat} {outcomes : List LockEvent} (h : Adds 1 m outcomes) :
    Adds 1 m (pbncFsm outcomes) := h.cons_access.append_access

/-! ## The functions of the API -/

/-- All that has happened to the monitor between two contexts are accesses. -/
def ApiContext.Touches (c c' : ApiContext) : Prop :=
  ∃ k, c'.monitor = c.monitor ++ List.replicate k .access

namespace ApiContext

variable {c c' c'' : ApiContext}

lemma Touches.refl (c : ApiContext) : c.Touches c := ⟨0, (List.append_nil _).symm⟩

lemma touches_access (c : ApiContext) : c.Touches c.access := ⟨1, rfl⟩

lemma Touches.trans (h : c.Touches c') (h' : c'.Touches c'') : c.Touches c'' := by
  obtain ⟨k, hk⟩ := h
  obtain ⟨k', hk'⟩ := h'
  exact ⟨k + k', by rw [hk', hk, List.append_assoc, List.replicate_append_replicate]⟩

lemma touches_appendMessageBody (c : ApiContext) (message : Bytes) (ptr : MessagePtr) :
    c.Touches (c.appendMessageBody message ptr).1 := by
  rw [appendMessageBody]
  split
  · exact ⟨1, rfl⟩
  · exact ⟨1, rfl⟩

/-- The monitor is taken, accesses follow and then something else, and it is given back. -/
lemma Touches.adds_locked {path : List LockEvent} {m : Nat} (h : c.lock.Touches c')
    (hpath : Adds 1 m path) (hc : c''.monitor = c'.monitor ++ path ++ [.unlock]) :
    Adds 0 m (c''.monitor.drop c.monitor.length) := by
  obtain ⟨n, hn⟩ := h
  have hlocked := ((adds_accesses n).append hpath).locked
  rw [Nat.zero_add] at hlocked
  have hdrop : c''.monitor.drop c.monitor.length =
      .lock :: (List.replicate n .access ++ path) ++ [.unlock] := by
    rw [hc, hn, lock, note]
    simp
  rw [hdrop]
  exact hlocked

/-- The monitor is taken and not given back. -/
lemma adds_lock_access (c : ApiContext) :
    Adds 0 1 (c.lock.access.monitor.drop c.monitor.length) := by
  have hdrop : c.lock.access.monitor.drop c.monitor.length = [.lock, .access] := by
    rw [lock, access, note, note]
    simp
  rw [hdrop]
  intro n _
  rw [depth_lock, depth_access, depth_nil]

end ApiContext

namespace StartFunction

variable (f : StartFunction) (a : Preparation) (c : ApiContext)

lemma touches_prep : c.Touches (f.prep a c).1 := by
  have happend : ∀ c' : ApiContext, c.Touches c' →
      c.Touches (if f.verb.hasBody then c'.appendMessageBody a.text .caller
        else (c', .started)).1 := by
    intro c' h
    split
    · exact h.trans (c'.touches_appendMessageBody a.text .caller)
    · exact h
  rw [prep]
  cases a.url with
  | error e => exact c.touches_access
  | ok url =>
      cases a.signature with
      | noKey => exact happend _ c.touches_access
      | failed e =>
          dsimp only
          split
          · exact happend _ c.touches_access
          · split
            · exact happend _ c.touches_access
            · exact c.touches_access
      | made signature => exact happend _ c.touches_access

lemma touches_before : c.Touches (f.before c) := by
  rw [before]
  cases f.setsVerbBefore
  all_goals
    cases f.setsTransBefore
    all_goals first
      | exact ⟨0, (List.append_nil _).symm⟩
      | exact ⟨1, rfl⟩
      | exact ⟨2, List.append_assoc _ _ _⟩

lemma touches_after : c.Touches (f.after c) := by
  rw [after]
  cases f.continues
  all_goals
    cases f.setsVerbAfter
    all_goals first
      | exact ⟨1, rfl⟩
      | exact ⟨2, List.append_assoc _ _ _⟩
      | exact ⟨3, by simp [ApiContext.setMethod, ApiContext.setLastResult, ApiContext.setTrans,
          ApiContext.access, ApiContext.note, List.replicate]⟩

/-- What a call does to the monitor. -/
def monitorPath : List LockEvent := (f.call a c).1.monitor.drop c.monitor.length

/-- **What a call does to the monitor**: it takes it, and gives it back unless the channels could not
    be noted. -/
lemma adds_monitorPath {m : Nat} (hfsm : Adds 1 m a.callbacks) :
    Adds 0 (if f.leavesLocked a c then 1 else if f.starts a c then m else 0)
      (f.monitorPath a c) := by
  have hnil := adds_nil.mono (Nat.zero_le 1)
  have hprep := (c.lock.touches_access.trans (f.touches_before c.lock.access)).trans
    (f.touches_prep a (f.atPrep c))
  have hends := f.ends_call a c
  rw [monitorPath]
  generalize (f.call a c).1 = c' at hends ⊢
  cases hends with
  | locked h =>
      rw [if_pos h]
      exact c.adds_lock_access
  | early c' hl hadm hc =>
      have hstarts : f.starts a c = false := by rw [starts, hadm, Bool.false_and]
      have htouches : c.lock.Touches c' := by
        rcases hc with rfl | rfl
        · exact c.lock.touches_access
        · exact c.lock.touches_access.trans c.lock.access.touches_access
      rw [hl, hstarts]
      exact htouches.adds_locked hnil (by rw [List.append_nil]; rfl)
  | failed hadm h =>
      have hstarts : f.starts a c = false := by
        rw [starts, hadm, Bool.true_and]
        exact decide_eq_false h
      rw [leavesLocked_of_admits hadm, hstarts]
      exact hprep.adds_locked hnil (by rw [List.append_nil]; rfl)
  | started hadm h =>
      have hstarts : f.starts a c = true := by
        rw [starts, hadm, Bool.true_and]
        exact decide_eq_true h
      rw [leavesLocked_of_admits hadm, hstarts]
      refine (hprep.trans (f.touches_after _)).adds_locked (adds_pbncFsm hfsm) ?_
      rw [started, ApiContext.fsm, ApiContext.unlock, ApiContext.note, pbncFsm]
      simp

end StartFunction

namespace PublishEx

variable (o : PublishEx) (c : ApiContext)

lemma touches_compress : c.Touches (o.compress c) := by
  rw [compress]
  split
  · cases o.packs
    all_goals exact ⟨0, (List.append_nil _).symm⟩
  · exact .refl c

lemma touches_prep : c.Touches (o.prep c).1 := by
  rw [prep]
  split
  · exact c.touches_access
  · exact c.touches_access
  · dsimp only
    split
    · exact c.touches_access
    · exact c.touches_access.trans (ApiContext.touches_appendMessageBody _ o.text o.messagePtr)

/-- What a call does to the monitor. -/
def monitorPath : List LockEvent := (o.call c).1.monitor.drop c.monitor.length

/-- **What a `pubnub_publish_ex` does to the monitor**: it takes it, and gives it back unless the
    message could not be encrypted. -/
lemma adds_monitorPath {m : Nat} (hfsm : Adds 1 m o.callbacks) :
    Adds 0 (if o.leavesLocked c then 1 else if o.starts c then m else 0) (o.monitorPath c) := by
  have hnil := adds_nil.mono (Nat.zero_le 1)
  have hprep := (c.lock.touches_access.trans (o.touches_compress c.lock.access)).trans
    (o.touches_prep (o.compress c.lock.access))
  have hends := o.ends_call c
  rw [monitorPath]
  generalize (o.call c).1 = c' at hends ⊢
  cases hends with
  | inUse h =>
      rw [leavesLocked, starts, h]
      exact c.lock.touches_access.adds_locked hnil (by rw [List.append_nil]; rfl)
  | locked hbusy h =>
      rw [leavesLocked, hbusy, h]
      exact c.adds_lock_access
  | failed hbusy henc h =>
      rw [leavesLocked, starts, hbusy, henc, decide_eq_false h]
      exact hprep.adds_locked hnil (by rw [List.append_nil]; rfl)
  | started hbusy henc h =>
      rw [leavesLocked, starts, hbusy, henc, decide_eq_true h]
      have hset := ((hprep.trans (ApiContext.touches_access _)).trans
        (ApiContext.touches_access _)).trans (ApiContext.touches_access _)
      refine ApiContext.Touches.adds_locked hset (adds_pbncFsm hfsm) ?_
      rw [started, ApiContext.fsm, ApiContext.unlock, ApiContext.note, pbncFsm]
      simp [ApiContext.setTrans, ApiContext.setLastResult, ApiContext.setMethod,
        ApiContext.access, ApiContext.note]

end PublishEx

/-! ## The functions around the state machine

What each of them does to the monitor, from what happens while the state machine runs.
-/

/-- `pbntf_trans_outcome`, and what it calls: the retry timer, or the callback of the user. -/
def pbntfTransOutcome (next : List LockEvent) : List LockEvent := .access :: next

/-- `pbnc_stop`. -/
def pbncStop (fsm : List LockEvent) : List LockEvent := .access :: fsm

/-- `pubnub_get`, and likewise every function that only looks at the context or changes a field:
    `pubnub_get_channel`, `pubnub_register_callback`, the engine where it asks whether a transaction
    can start and where it reads or writes the time token. -/
def pubnubGet : List LockEvent := .lock :: [.access] ++ [.unlock]

/-- `pballoc_free_at_last`. -/
def pballocFreeAtLast : List LockEvent := .lock :: [.access] ++ [.unlock]

/-- `pbcc_subscribe_ee_postponed_unsubscribe_`, which the callback of the engine calls: it prepares
    the request and does not take the monitor, which is held. -/
def pbccSubscribeEePostponedUnsubscribe (leaves : Bool) : List LockEvent :=
  if leaves then [.access, .access] else []

/-- `pbpal_ntf_callback_process_queue`, for one context of the queue. -/
def pbpalNtfCallbackProcessQueue (isNull : Bool) (fsm : List LockEvent) : List LockEvent :=
  if isNull then .lock :: [.access] ++ [.unlock] ++ pballocFreeAtLast
  else .lock :: .access :: pbncFsm fsm ++ [.unlock]

/-- `pbntf_handle_timer_list`, for one context that has expired. -/
def pbntfHandleTimerList (stop : List LockEvent) : List LockEvent :=
  .lock :: (.access :: pbncStop stop ++ [.access]) ++ [.unlock]

/-- `pbcc_request_retry_timer_run_`, once the delay is over or the timer has been stopped. -/
def pbccRequestRetryTimerRun (stopped waits : Bool) (fsm : List LockEvent) : List LockEvent :=
  if stopped then .lock :: [] ++ [.unlock]
  else if waits then .lock :: .access :: .access :: pbncFsm fsm ++ [.unlock]
  else .lock :: [.access] ++ [.unlock]

/-- How `pbcc_request_retry_timer_start` goes on: in a thread of its own, at once since there is no
    thread, or in this thread. -/
inductive RetryTimerMode
  | thread
  | noThread (waits : Bool)
  | inline (stopped waits : Bool)

/-- The state machine is run for a retry. -/
def RetryTimerMode.retries : RetryTimerMode → Bool
  | .thread => false
  | .noThread waits => waits
  | .inline stopped waits => !stopped && waits

/-- `pbcc_request_retry_timer_start`, of a timer that does not run. -/
def pbccRequestRetryTimerStart (mode : RetryTimerMode) (fsm : List LockEvent) : List LockEvent :=
  .lock :: [.access, .access] ++ [.unlock] ++
    match mode with
    | .thread => []
    | .noThread waits => pbccRequestRetryTimerRun false waits fsm
    | .inline stopped waits => pbccRequestRetryTimerRun stopped waits fsm

/-- `pubnub_last_result`; without callbacks it runs the state machine. -/
def pubnubLastResult (runs : Bool) (fsm : List LockEvent) : List LockEvent :=
  .lock :: (.access :: (if runs then pbncFsm fsm else []) ++ [.access]) ++ [.unlock]

/-- `pubnub_await`.  On a context with callbacks it returns without giving the monitor back. -/
def pubnubAwait (isSync stopped : Bool) (rounds : List LockEvent) : List LockEvent :=
  if isSync then
    .lock :: (if stopped then .access :: rounds else .access :: rounds ++ [.access]) ++ [.unlock]
  else [.lock]

/-- `pubnub_cancel`. -/
def pubnubCancel (stop : List LockEvent) : List LockEvent :=
  .lock :: (pbncStop stop ++ [.access]) ++ [.unlock]

/-- `pubnub_free`, of a context that has not been initialised, and else of one that is idle then or
    is not, with callbacks or without. -/
def pubnubFree (isNull isIdle hasCallbacks : Bool) (stop : List LockEvent) : List LockEvent :=
  if isNull then .lock :: [.access] ++ [.unlock]
  else
    .lock :: (.access :: pbncStop stop ++ [.access]) ++ [.unlock] ++
      if isIdle && !hasCallbacks then pballocFreeAtLast else []

/-! ## Paths -/

/-- A path of one thread through the library, as far as the monitor of one context is concerned.
    The paths inside it are taken while the state machine runs. -/
inductive MonitorPath
  | nil
  | append (p q : MonitorPath)
  | startFunction (f : StartFunction) (a : Preparation) (c : ApiContext) (p : MonitorPath)
  | publishEx (o : PublishEx) (c : ApiContext) (p : MonitorPath)
  | fsm (p : MonitorPath)
  | transOutcome (p : MonitorPath)
  | postponedUnsubscribe (leaves : Bool)
  | get
  | processQueue (isNull : Bool) (p : MonitorPath)
  | handleTimerList (p : MonitorPath)
  | retryTimerStart (mode : RetryTimerMode) (p : MonitorPath)
  | retryTimerRun (stopped waits : Bool) (p : MonitorPath)
  | lastResult (runs : Bool) (p : MonitorPath)
  | await (isSync stopped : Bool) (p : MonitorPath)
  | cancel (p : MonitorPath)
  | free (isNull isIdle hasCallbacks : Bool) (p : MonitorPath)

namespace MonitorPath

/-- What happens to the monitor on a path. -/
def trace : MonitorPath → List LockEvent
  | nil => []
  | append p q => p.trace ++ q.trace
  | startFunction f a c p => f.monitorPath { a with callbacks := p.trace } c
  | publishEx o c p => { o with callbacks := p.trace }.monitorPath c
  | fsm p => pbncFsm p.trace
  | transOutcome p => pbntfTransOutcome p.trace
  | postponedUnsubscribe leaves => pbccSubscribeEePostponedUnsubscribe leaves
  | get => pubnubGet
  | processQueue isNull p => pbpalNtfCallbackProcessQueue isNull p.trace
  | handleTimerList p => pbntfHandleTimerList p.trace
  | retryTimerStart mode p => pbccRequestRetryTimerStart mode p.trace
  | retryTimerRun stopped waits p => pbccRequestRetryTimerRun stopped waits p.trace
  | lastResult runs p => pubnubLastResult runs p.trace
  | await isSync stopped p => pubnubAwait isSync stopped p.trace
  | cancel p => pubnubCancel p.trace
  | free isNull isIdle hasCallbacks p => pubnubFree isNull isIdle hasCallbacks p.trace

/-- How often the thread has to hold the monitor already: the functions inside the state machine are
    only called with it. -/
def held : MonitorPath → Nat
  | append p q => max p.held q.held
  | fsm _ | transOutcome _ | postponedUnsubscribe _ => 1
  | _ => 0

/-- **Where the monitor is given back**: the channels of a call can be noted for the automatic
    heartbeat, a message that shall be encrypted can be, and only a context without callbacks is
    waited for. -/
def Clear : MonitorPath → Prop
  | nil | postponedUnsubscribe _ | get => True
  | append p q => p.Clear ∧ q.Clear
  | startFunction f a c p => f.leavesLocked a c = false ∧ (f.starts a c = true → p.Clear)
  | publishEx o c p => o.leavesLocked c = false ∧ (o.starts c = true → p.Clear)
  | fsm p | transOutcome p | handleTimerList p | cancel p => p.Clear
  | processQueue isNull p => isNull = false → p.Clear
  | retryTimerStart mode p => mode.retries = true → p.Clear
  | retryTimerRun stopped waits p => stopped = false ∧ waits = true → p.Clear
  | lastResult runs p => runs = true → p.Clear
  | await isSync _ p => isSync = true ∧ p.Clear
  | free isNull _ _ p => isNull = false → p.Clear

lemma held_le_one (p : MonitorPath) : p.held ≤ 1 := by
  induction p with
  | append p q ihp ihq => exact max_le ihp ihq
  | fsm p ih => exact le_refl 1
  | transOutcome p ih => exact le_refl 1
  | postponedUnsubscribe leaves => exact le_refl 1
  | _ => exact Nat.zero_le 1

/-! ## The step -/

lemma adds_get : Adds 0 0 pubnubGet := (adds_accesses 1).locked

lemma adds_processQueue {m : Nat} {fsm : List LockEvent} (isNull : Bool) (h : Adds 1 m fsm) :
    Adds 0 (if isNull then 0 else m) (pbpalNtfCallbackProcessQueue isNull fsm) := by
  rw [pbpalNtfCallbackProcessQueue]
  split
  · exact adds_get.append adds_get
  · exact (adds_pbncFsm h).cons_access.locked

lemma adds_retryTimerRun {m : Nat} {fsm : List LockEvent} (stopped waits : Bool)
    (h : Adds 1 m fsm) :
    Adds 0 (if !stopped && waits then m else 0) (pbccRequestRetryTimerRun stopped waits fsm) := by
  rw [pbccRequestRetryTimerRun]
  cases stopped with
  | true => exact (adds_nil.mono (Nat.zero_le 1)).locked
  | false =>
      cases waits with
      | true => exact (adds_pbncFsm h).cons_access.cons_access.locked
      | false => exact adds_get

lemma adds_retryTimerStart {m : Nat} {fsm : List LockEvent} (mode : RetryTimerMode)
    (h : Adds 1 m fsm) :
    Adds 0 (if mode.retries then m else 0) (pbccRequestRetryTimerStart mode fsm) := by
  have hstart : Adds 0 0 ([LockEvent.lock] ++ [.access, .access] ++ [.unlock]) :=
    (adds_accesses 2).locked
  cases mode with
  | thread =>
      have hpath := hstart.append adds_nil
      exact hpath
  | noThread waits =>
      have hpath := hstart.append (adds_retryTimerRun false waits h)
      rw [Nat.zero_add] at hpath
      exact hpath
  | inline stopped waits =>
      have hpath := hstart.append (adds_retryTimerRun stopped waits h)
      rw [Nat.zero_add] at hpath
      exact hpath

lemma adds_free {m : Nat} {stop : List LockEvent} (isNull isIdle hasCallbacks : Bool)
    (h : Adds 1 m stop) :
    Adds 0 (if isNull then 0 else m) (pubnubFree isNull isIdle hasCallbacks stop) := by
  rw [pubnubFree]
  split
  · exact adds_get
  · have hfirst := h.cons_access.cons_access.append_access.locked
    split
    · exact hfirst.append adds_get
    · exact hfirst.append adds_nil

/-- **What a path adds**: it can be followed, and it gives back what it takes exactly if it is
    clear. -/
lemma exists_adds (p : MonitorPath) : ∃ m, (m = 0 ↔ p.Clear) ∧ Adds p.held m p.trace := by
  have hone : ∀ {p : MonitorPath} {m : Nat}, Adds p.held m p.trace → Adds 1 m p.trace :=
    fun {p m} h => h.mono p.held_le_one
  induction p with
  | nil => exact ⟨0, iff_of_true rfl trivial, adds_nil⟩
  | append p q ihp ihq =>
      obtain ⟨m, hm, hp⟩ := ihp
      obtain ⟨k, hk, hq⟩ := ihq
      refine ⟨m + k, ?_, ?_⟩
      · rw [Nat.add_eq_zero_iff, hm, hk]
        rfl
      · exact (hp.mono (le_max_left _ _)).append (hq.mono (le_max_right _ _))
  | startFunction f a c p ih =>
      obtain ⟨m, hm, hp⟩ := ih
      refine ⟨_, ?_, f.adds_monitorPath { a with callbacks := p.trace } c (hone hp)⟩
      show (if f.leavesLocked a c then 1 else if f.starts a c then m else 0) = 0 ↔ _
      rw [Clear, ← hm]
      cases f.leavesLocked a c
      all_goals simp
  | publishEx o c p ih =>
      obtain ⟨m, hm, hp⟩ := ih
      refine ⟨_, ?_, PublishEx.adds_monitorPath { o with callbacks := p.trace } c (hone hp)⟩
      show (if o.leavesLocked c then 1 else if o.starts c then m else 0) = 0 ↔ _
      rw [Clear, ← hm]
      cases o.leavesLocked c
      all_goals simp
  | fsm p ih =>
      obtain ⟨m, hm, hp⟩ := ih
      exact ⟨m, hm, adds_pbncFsm (hone hp)⟩
  | transOutcome p ih =>
      obtain ⟨m, hm, hp⟩ := ih
      exact ⟨m, hm, (hone hp).cons_access⟩
  | postponedUnsubscribe leaves =>
      refine ⟨0, iff_of_true rfl trivial, ?_⟩
      cases leaves with
      | true => exact adds_accesses 2
      | false => exact adds_accesses 0
  | get => exact ⟨0, iff_of_true rfl trivial, adds_get⟩
  | processQueue isNull p ih =>
      obtain ⟨m, hm, hp⟩ := ih
      refine ⟨_, ?_, adds_processQueue isNull (hone hp)⟩
      rw [Clear, ← hm]
      cases isNull
      all_goals simp
  | handleTimerList p ih =>
      obtain ⟨m, hm, hp⟩ := ih
      exact ⟨m, hm, (hone hp).cons_access.cons_access.append_access.locked⟩
  | retryTimerStart mode p ih =>
      obtain ⟨m, hm, hp⟩ := ih
      refine ⟨_, ?_, adds_retryTimerStart mode (hone hp)⟩
      rw [Clear, ← hm]
      cases mode.retries
      all_goals simp
  | retryTimerRun stopped waits p ih =>
      obtain ⟨m, hm, hp⟩ := ih
      refine ⟨_, ?_, adds_retryTimerRun stopped waits (hone hp)⟩
      rw [Clear, ← hm]
      cases stopped
      all_goals simp
  | lastResult runs p ih =>
      obtain ⟨m, hm, hp⟩ := ih
      refine ⟨if runs then m else 0, ?_, ?_⟩
      · rw [Clear, ← hm]
        cases runs
        all_goals simp
      · cases runs with
        | true => exact (adds_pbncFsm (hone hp)).cons_access.append_access.locked
        | false => exact (adds_accesses 2).locked
  | await isSync stopped p ih =>
      obtain ⟨m, hm, hp⟩ := ih
      cases isSync with
      | true =>
          refine ⟨m, by simp [Clear, hm], ?_⟩
          cases stopped with
          | true => exact (hone hp).cons_access.locked
          | false => exact (hone hp).cons_access.append_access.locked
      | false => exact ⟨1, by simp [Clear], adds_lock⟩
  | cancel p ih =>
      obtain ⟨m, hm, hp⟩ := ih
      exact ⟨m, hm, (hone hp).cons_access.append_access.locked⟩
  | free isNull isIdle hasCallbacks p ih =>
      obtain ⟨m, hm, hp⟩ := ih
      refine ⟨_, ?_, adds_free isNull isIdle hasCallbacks (hone hp)⟩
      rw [Clear, ← hm]
      cases isNull
      all_goals simp

/-! ## The result -/

/-- **The monitor is given back**: a path through the functions of the library gives the monitor
    back as often as it takes it, and accesses the state of a transaction only in between, exactly if
    it is clear. -/
theorem keepsMonitor_iff_clear (p : MonitorPath) (h : p.held = 0) :
    KeepsMonitor p.trace ↔ p.Clear := by
  obtain ⟨m, hm, hadds⟩ := p.exists_adds
  rw [h] at hadds
  exact hadds.keepsMonitor_iff.trans hm

/-- A context on which two calls are made: the second finds it in use.  Then the transaction of the
    first ends, and its callback reads a message. -/
def timeTwice : MonitorPath :=
  .append (.startFunction pubnubTime ApiContext.timePrep (.init []) .nil)
    (.append (.startFunction pubnubTime ApiContext.timePrep { ApiContext.init [] with busy := true } .nil)
      (.processQueue false (.transOutcome .get)))

theorem keepsMonitor_iff_clear_timeTwice :
    timeTwice.held = 0 ∧ (KeepsMonitor timeTwice.trace ↔ timeTwice.Clear) :=
  ⟨by decide, timeTwice.keepsMonitor_iff_clear (by decide)⟩

/-- There is no memory to note the channel of a subscribe for the automatic heartbeat. -/
def subscribeWithoutMemory : MonitorPath :=
  .startFunction pubnubSubscribe
    { channels := .outOfMemory, url := .ok (.ofPath (ascii "/subscribe/demo/ch/0") (by decide)) }
    (.init []) .nil

theorem not_always_keepsMonitor : ¬ ∀ p : MonitorPath, p.held = 0 → KeepsMonitor p.trace := by
  intro h
  have hreleased := (h subscribeWithoutMemory rfl).released
  exact absurd hreleased (by decide)

end MonitorPath

end PubNub
