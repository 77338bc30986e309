import PubNubCore.Lib.Journal
import PubNubCore.Network.Runs

/-!
# How a pass ends

The log of a context is a journal: its sessions are the transactions, opened when a function of
the API starts one and closed when `pbntf_trans_outcome` calls the callback.  A pass of the state
machine for a transaction that is open ends in one of a few ways (`Pb.Ends`): it goes on, or waits
for the network, with the transaction still open; it puts the transaction into the queue; or the
transaction has ended, and nothing is left that would wake the state machine up for it.

What carries this through the branches is the bookkeeping of `Pb.Wired`: which states may have
`retry_after_close` set, which have a connection, and in which neither the poller nor a timer
knows of the context.
-/

namespace PubNub

/-! ## The log as a journal -/

namespace WireEvent

/-- The transaction to which an event belongs. -/
def trans : WireEvent → Option Nat
  | .started n _ => some n
  | .enqueued trans | .sent trans _ | .reported trans _ => trans

/-- What an event means for the transactions.  A request must not be sent for none. -/
def mark : WireEvent → Option Mark
  | .started n _ => some (.opens n)
  | .enqueued trans | .sent trans _ => trans.map .within
  | .reported trans _ => some (trans.elim .aside .closes)

/-- The outcome of the `n`-th transaction. -/
def reports (n : Nat) : WireEvent → Bool
  | .reported trans _ => trans == some n
  | _ => false

lemma closes_mark (n : Nat) : closes mark n = reports n := by
  funext e
  cases e with
  | started m r => rfl
  | enqueued trans | sent trans _ => cases trans <;> rfl
  | reported trans rslt => cases trans <;> simp [closes, mark, reports]

lemma bind_session_mark (e : WireEvent) : e.mark.bind Mark.session = e.trans := by
  cases e with
  | started n r => rfl
  | enqueued trans | sent trans _ => cases trans <;> rfl
  | reported trans rslt => cases trans <;> rfl

end WireEvent

/-! ## What each state owes -/

namespace PbState

/-- A transaction may be started. -/
def startable : PbState → Bool
  | .idle | .keepAliveIdle => true
  | _ => false

/-- `retry_after_close` may be set. -/
def mayRetry : PbState → Bool
  | .waitClose | .waitCancel | .waitCancelClose | .retry | .connected => true
  | _ => false

/-- Neither the poller nor the timer wakes the state machine up. -/
def unwatched : PbState → Bool
  | .idle | .ready | .retry | .waitRetry | .waitClose | .waitCancelClose | .keepAliveIdle
  | .keepAliveReady | .keepAliveWaitClose => true
  | _ => false

/-- There is a connection, or one is being made. -/
def hasSocket : PbState → Bool
  | .null | .idle | .ready | .retry | .waitRetry | .waitClose | .waitCancel | .waitCancelClose
  | .waitCancelDns | .keepAliveWaitClose | .waitCancelKeepalive => false
  | _ => true

/-- What the state can be while the user's callback runs. -/
def inCallback : PbState → Bool
  | .idle | .keepAliveIdle | .ready | .keepAliveReady | .waitCancel => true
  | _ => false

end PbState

/-- The timer has a thread. -/
def RetryTimer.running : RetryTimer → Bool
  | .null | .stopped => false
  | .waiting | .calling => true

namespace Pb

/-- Neither the poller nor the timer knows of the context. -/
def Unheard (pb : Pb) : Prop := pb.watched = false ∧ pb.timer = false

/-- By its log, `c` transactions have been started. -/
def Counts (c : ℕ) (pb : Pb) : Prop := ∃ p, phase WireEvent.mark pb.log = some p ∧ p.opened = c

/-- The transaction is the latest of `c`, and its outcome has not been reported. -/
def Open (c : ℕ) (pb : Pb) : Prop :=
  ∃ n, c = n + 1 ∧ pb.trans = some n ∧ phase WireEvent.mark pb.log = some (.busy n)

/-- The outcome of the transaction has been reported. -/
def Told (pb : Pb) : Prop := ∀ n, pb.trans = some n → ∃ rslt, .reported (some n) rslt ∈ pb.log

/-- What the state says about the flag, the socket and those who wake the state machine up. -/
structure Wired (pb : Pb) : Prop where
  once : pb.retryAfterClose = true → pb.state.mayRetry = true
  unwatched : pb.state.unwatched = true → pb.Unheard
  socket : pb.state.hasSocket = true → pb.pal.closed = false
  lost : pb.pal.closed = true → pb.Unheard

/-- A context that was cancelled between two transactions: what is still done is done for
    none. -/
structure Stray (c : ℕ) (pb : Pb) : Prop where
  counts : pb.Counts c
  trans : pb.trans = none
  cancelled : pb.lastResult = .cancelled
  state : pb.state = .waitCancel ∨ pb.state = .waitCancelClose
  once : pb.retryAfterClose = false
  timer : pb.timer = false

/-- The state machine is about to make a pass. -/
structure Running (c : ℕ) (pb : Pb) : Prop extends Wired pb where
  queued : pb.queued = 0
  owes : pb.Open c ∨ pb.Stray c

/-- A transaction waits in the queue for its first pass. -/
structure Queued (c : ℕ) (pb : Pb) : Prop extends Wired pb where
  queued : pb.queued = 1
  opened : pb.Open c
  state : pb.state = .ready ∨ pb.state = .keepAliveReady
  direct : pb.retryAfterClose = false

/-- A transaction has ended. -/
structure Settled (c : ℕ) (pb : Pb) : Prop extends Wired pb where
  queued : pb.queued = 0
  counts : pb.Counts c
  state : pb.state.startable = true

/-- The state machine is not at work. -/
structure Waiting (c : ℕ) (pb : Pb) : Prop extends Wired pb where
  queued : pb.queued ≤ 1
  quiet : pb.state.startable = true ∨ pb.state = .waitRetry → pb.queued = 0
  owes : pb.state.startable = true ∧ pb.Counts c ∨ pb.state.startable = false ∧ pb.Open c ∨
    pb.Stray c

variable {c : ℕ} {b pb pb' : Pb} {a : Answer} {next : Next}

lemma Open.counts (h : pb.Open c) : pb.Counts c := by
  obtain ⟨n, rfl, _, hp⟩ := h
  exact ⟨_, hp, rfl⟩

/-- What is sent or enqueued belongs to the transaction that is under way. -/
lemma Open.observe (h : pb.Open c) {e : WireEvent} (he : e.mark = pb.trans.map .within) :
    (pb.observe e).Open c := by
  obtain ⟨n, hc, ht, hp⟩ := h
  refine ⟨n, hc, ht, ?_⟩
  simp [Pb.observe, phase, hp, he, ht, Phase.advance]

/-- The report ends the transaction. -/
lemma counts_report {rslt : PubnubRes} (h : pb.Open c ∨ pb.trans = none ∧ pb.Counts c) :
    (pb.observe (.reported pb.trans rslt)).Counts c := by
  rcases h with ⟨n, rfl, ht, hp⟩ | ⟨ht, p, hp, hc⟩
  · exact ⟨.free (n + 1), by simp [Pb.observe, phase, hp, ht, WireEvent.mark, Phase.advance], rfl⟩
  · refine ⟨p, ?_, hc⟩
    cases p <;> simp [Pb.observe, phase, hp, ht, WireEvent.mark, Phase.advance]

lemma told_report (pb : Pb) (rslt : PubnubRes) : (pb.observe (.reported pb.trans rslt)).Told := by
  rintro n ht
  exact ⟨rslt, ht ▸ List.mem_cons_self⟩

/-! ## How a pass ends -/

/-- `pb` is what a pass that began with `b` has made of the context: the transaction is the
    same, and the log is longer. -/
structure Follows (b pb : Pb) : Prop where
  trans : pb.trans = b.trans
  log : b.log <:+ pb.log

/-- The ends of a pass that began with `b`: the state machine goes on or waits to be woken up;
    it waits for its turn in the queue; the transaction has ended, with a report unless the
    running timer was asked for a retry; the thread for a retry could not be made; or the thread
    hangs. -/
inductive Ends (c : ℕ) (b : Pb) (a : Answer) (p : Pass) : Prop
  | goesOn (follows : Follows b p.pb) (outcome : p.outcome = .none) (start : b.state.startable = false)
      (running : p.pb.Running c) (again : p.pb.state.startable = true → p.next = .again)
  | enqueues (follows : Follows b p.pb) (outcome : p.outcome = .none) (next : p.next = .brk)
      (queued : p.pb.Queued c)
  | settles (follows : Follows b p.pb) (next : p.next ≠ .again) (settled : p.pb.Settled c)
      (told : p.outcome = .callback ∧ p.pb.Told ∨
        p.outcome = .none ∧ b.retryTimer.running = true ∧ 0 < a.retryDelay)
  | retries (follows : Follows b p.pb) (outcome : p.outcome = .fsm) (next : p.next ≠ .again)
      (start : b.state.startable = false) (running : p.pb.Running c) (state : p.pb.state = .retry)
  | hangs (follows : Follows b p.pb) (outcome : p.outcome = .hang) (counts : p.pb.Counts c)

lemma Ends.keptAlive {p : Pass} (h : Ends c b a p) : Ends c b a { p with keptAlive := true } := by
  cases h with
  | goesOn follows outcome start running again => exact .goesOn follows outcome start running again
  | enqueues follows outcome next queued => exact .enqueues follows outcome next queued
  | settles follows next settled told => exact .settles follows next settled told
  | retries follows outcome next start running state =>
      exact .retries follows outcome next start running state
  | hangs follows outcome counts => exact .hangs follows outcome counts

/-- The transaction of a pass is under way, and nobody will wake the state machine up for it. -/
structure Within (c : ℕ) (b pb : Pb) : Prop extends Follows b pb where
  start : b.state.startable = false
  timer : pb.retryTimer = b.retryTimer
  opened : pb.Open c
  queued : pb.queued = 0

/-- There is a connection, and none is to be made afterwards. -/
structure Linked (c : ℕ) (b pb : Pb) : Prop extends Within c b pb where
  once : pb.retryAfterClose = false
  socket : pb.pal.closed = false

/-- The connection, if there is one, can be closed. -/
structure Closable (c : ℕ) (b pb : Pb) : Prop extends Within c b pb where
  lost : pb.pal.closed = true → pb.Unheard

lemma Linked.closable (h : Linked c b pb) : Closable c b pb :=
  ⟨h.toWithin, fun hc => absurd hc (by simp [h.socket])⟩

/-- The outcome of the transaction can be reported. -/
structure Reportable (c : ℕ) (b pb : Pb) : Prop extends Follows b pb where
  timer : pb.retryTimer = b.retryTimer
  queued : pb.queued = 0
  once : pb.retryAfterClose = false
  unheard : pb.Unheard
  owes : pb.Open c ∧ (b.state.startable = true → pb.lastResult.retryable = false) ∨
    pb.trans = none ∧ pb.Counts c ∧ pb.lastResult.retryable = false

lemma Reportable.counts (h : Reportable c b pb) : pb.Counts c := by
  rcases h.owes with ho | ho
  · exact ho.1.counts
  · exact ho.2.1

/-- `pbntf_trans_outcome`. -/
lemma ends_transOutcome {state : PbState} (h : Reportable c b pb)
    (hst : state = .idle ∨ state = .keepAliveIdle ∧ pb.pal.closed = false) (hn : next ≠ .again) :
    Ends c b a (pb.transOutcome a state next) := by
  have hstart : state.startable = true := by
    rcases hst with rfl | ⟨rfl, _⟩ <;> rfl
  have hsocket : state.hasSocket = true → pb.pal.closed = false := by
    rcases hst with rfl | ⟨rfl, hc⟩
    · simp [PbState.hasSocket]
    · exact fun _ => hc
  have hsettled {log : List WireEvent} {timer : RetryTimer} {count : Nat}
      (hc : { pb with log := log }.Counts c) :
      { pb with method := .sendViaGET, state := state, httpRetryCount := count,
                retryTimer := timer, log := log }.Settled c :=
    ⟨⟨fun ht => absurd ht (by simp [h.once]), fun _ => h.unheard, hsocket, fun _ => h.unheard⟩,
      h.queued, hc, hstart⟩
  have hreport : { pb with log := .reported pb.trans pb.lastResult :: pb.log }.Counts c :=
    counts_report (h.owes.imp (·.1) fun ho => ⟨ho.1, ho.2.1⟩)
  have hlog : b.log <:+ .reported pb.trans pb.lastResult :: pb.log :=
    h.log.trans (List.suffix_cons _ _)
  rw [transOutcome, pbntfTransOutcome]
  split
  · rename_i hretry
    simp only [Bool.and_eq_true, decide_eq_true_eq] at hretry
    obtain ⟨⟨_, hretryable⟩, hdelay⟩ := hretry
    have hopen : pb.Open c ∧ b.state.startable = false := by
      rcases h.owes with ⟨ho, hs⟩ | ⟨_, _, hs⟩
      · refine ⟨ho, Bool.eq_false_iff.mpr fun hb => ?_⟩
        exact absurd hretryable (by simp [hs hb])
      · exact absurd hretryable (by simp [hs])
    have hwired {st : PbState} {timer : RetryTimer} {count : Nat}
        (hs : st.hasSocket = false) :
        { pb with method := .sendViaGET, state := st, httpRetryCount := count,
                  retryTimer := timer }.Running c :=
      ⟨⟨fun ht => absurd ht (by simp [h.once]), fun _ => h.unheard,
        fun ht => absurd ht (by simp [hs]), fun _ => h.unheard⟩, h.queued, .inl hopen.1⟩
    rw [requestRetryTimerStart]
    split
    · rename_i htimer
      have hrun : b.retryTimer.running = true := by rw [← h.timer, show pb.retryTimer = _ from htimer]; rfl
      exact .settles ⟨h.trans, h.log⟩ hn (hsettled h.counts) (.inr ⟨rfl, hrun, hdelay⟩)
    · rename_i htimer
      have hrun : b.retryTimer.running = true := by rw [← h.timer, show pb.retryTimer = _ from htimer]; rfl
      exact .settles ⟨h.trans, h.log⟩ hn (hsettled h.counts) (.inr ⟨rfl, hrun, hdelay⟩)
    all_goals
      dsimp only
      split
      · exact .goesOn ⟨h.trans, h.log⟩ rfl hopen.2 (hwired rfl) (by simp [PbState.startable])
      · exact .retries ⟨h.trans, h.log⟩ rfl hn hopen.2 (hwired rfl) rfl
  · rw [reportOutcome]
    split
    · exact .hangs ⟨h.trans, h.log⟩ rfl h.counts
    all_goals
      exact .settles ⟨h.trans, hlog⟩ hn (hsettled hreport) (.inl ⟨rfl, told_report pb _⟩)

/-- `pbpal_close`: whoever knew of the socket does not any more. -/
lemma unheard_pbpalClose (hl : pb.pal.closed = true → pb.Unheard) (hq : pb.queued = 0) :
    pb.pbpalClose.Unheard ∧ pb.pbpalClose.queued = 0 := by
  rw [Pb.pbpalClose]
  dsimp only
  split
  · rename_i hc
    exact ⟨hl hc, hq⟩
  · exact ⟨⟨rfl, rfl⟩, by simp [Pb.lostSocket, hq]⟩

/-- Nothing else is changed by it. -/
lemma pbpalClose_eq (pb : Pb) : pb.pbpalClose.trans = pb.trans ∧ pb.pbpalClose.log = pb.log ∧
    pb.pbpalClose.retryTimer = pb.retryTimer ∧
      pb.pbpalClose.retryAfterClose = pb.retryAfterClose ∧
        pb.pbpalClose.lastResult = pb.lastResult := by
  rw [Pb.pbpalClose]
  dsimp only
  split <;> exact ⟨rfl, rfl, rfl, rfl, rfl⟩

lemma Open.congr (h : pb.Open c) (ht : pb'.trans = pb.trans) (hl : pb'.log = pb.log) : pb'.Open c := by
  obtain ⟨n, hn, htn, hp⟩ := h
  exact ⟨n, hn, ht.trans htn, hl ▸ hp⟩

lemma Closable.pbpalClose (h : Closable c b pb) : Within c b pb.pbpalClose ∧ pb.pbpalClose.Unheard := by
  obtain ⟨hu, hq⟩ := unheard_pbpalClose h.lost h.queued
  obtain ⟨ht, hl, hr, _⟩ := pbpalClose_eq pb
  exact ⟨⟨⟨ht.trans h.trans, hl ▸ h.log⟩, h.start, hr.trans h.timer, h.opened.congr ht hl, hq⟩, hu⟩

lemma Within.running (h : Within c b pb) (hw : pb.Wired) : pb.Running c := ⟨hw, h.queued, .inl h.opened⟩

/-- A connection that is being closed, or is closed. -/
lemma Within.afterClose {state : PbState} (h : Within c b pb) (hu : pb.Unheard)
    (hs : state.hasSocket = false) (hr : pb.retryAfterClose = true → state.mayRetry = true) :
    { pb with state }.Running c :=
  ⟨⟨hr, fun _ => hu, fun ht => absurd ht (by simp [hs]), fun _ => hu⟩, h.queued, .inl h.opened⟩

/-- `close_connection`. -/
lemma ends_closeConnection (h : Closable c b pb) (hn : next ≠ .again ∨ pb.retryAfterClose = true) :
    Ends c b a (pb.closeConnection a next) := by
  obtain ⟨hw, hu⟩ := h.pbpalClose
  have hr : pb.pbpalClose.retryAfterClose = pb.retryAfterClose := (pbpalClose_eq pb).2.2.2.1
  rw [closeConnection]
  split
  · refine .goesOn ⟨hw.trans, hw.log⟩ rfl h.start (hw.afterClose hu rfl fun _ => rfl) ?_
    simp [PbState.startable]
  · split
    · refine .goesOn ⟨hw.trans, hw.log⟩ rfl h.start (hw.afterClose hu rfl fun _ => rfl) ?_
      simp [PbState.startable]
    · rename_i hretry
      have hnext : next ≠ .again := hn.resolve_right (hr ▸ hretry)
      refine ends_transOutcome ?_ (.inl rfl) hnext
      exact ⟨⟨hw.trans, hw.log⟩, hw.timer, hw.queued, by simpa using hretry, hu,
        .inl ⟨hw.opened, fun hs => absurd hs (by simp [h.start])⟩⟩

/-- `outcome_detected`. -/
lemma ends_outcomeDetected (h : Linked c b pb) (rslt : PubnubRes) (hn : next ≠ .again) :
    Ends c b a (pb.outcomeDetected a rslt next) := by
  rw [outcomeDetected]
  dsimp only
  split
  · refine Ends.keptAlive (ends_transOutcome ?_ (.inr ⟨rfl, h.socket⟩) hn)
    exact ⟨⟨h.trans, h.log⟩, h.timer, by simp [lostSocket, h.queued], h.once, ⟨rfl, rfl⟩,
      .inl ⟨h.opened, fun hs => absurd hs (by simp [h.start])⟩⟩
  · refine ends_closeConnection ⟨⟨⟨h.trans, h.log⟩, h.start, h.timer, h.opened, h.queued⟩, ?_⟩ (.inl hn)
    exact h.closable.lost

/-- A TLS handshake that has failed closes the connection. -/
lemma ends_tlsFailed (h : Closable c b pb) (hn : next ≠ .again) : Ends c b a (pb.tlsFailed a next) := by
  have hclose : pb.shouldKeepAlive a .connectFailed = false := by
    simp [shouldKeepAlive, PubnubRes.closesConnection]
  have hkeep {pb' : Pb} (hk : pb'.shouldClose = pb.shouldClose) :
      pb'.shouldKeepAlive a .connectFailed = false := by
    simpa [shouldKeepAlive, hk] using hclose
  rw [tlsFailed, outcomeDetected]
  split
  all_goals
    dsimp only
    rw [if_neg (by simp [hkeep])]
    refine ends_closeConnection ⟨⟨⟨h.trans, h.log⟩, h.start, h.timer, h.opened, h.queued⟩, ?_⟩ (.inl hn)
    exact h.lost

/-! ## What is linked goes on -/

/-- The pass goes on, or waits, in a state with a connection. -/
lemma Linked.goesOn {p : Pass} (h : Linked c b p.pb) (hn : p.outcome = .none)
    (hs : p.pb.state.unwatched = false) : Ends c b a p := by
  have hstart : p.pb.state.startable = false := by
    revert hs
    cases p.pb.state <;> simp [PbState.unwatched, PbState.startable]
  refine .goesOn ⟨h.trans, h.log⟩ hn h.start (h.toWithin.running ?_) (by simp [hstart])
  exact ⟨fun hr => absurd hr (by simp [h.once]), fun hu => absurd hu (by simp [hs]),
    fun _ => h.socket, h.closable.lost⟩

/-- The fields on which nothing here depends may change. -/
lemma Linked.keep (h : Linked c b pb) (ht : pb'.trans = pb.trans) (hl : pb'.log = pb.log)
    (hr : pb'.retryTimer = pb.retryTimer) (hq : pb'.queued = pb.queued)
    (ho : pb'.retryAfterClose = pb.retryAfterClose) (hc : pb'.pal.closed = pb.pal.closed) :
    Linked c b pb' := by
  refine ⟨⟨⟨ht.trans h.trans, hl ▸ h.log⟩, h.start, hr.trans h.timer, ?_, hq.trans h.queued⟩,
    ho.trans h.once, hc.trans h.socket⟩
  exact h.opened.congr ht hl

/-- The platform layer works on the connection. -/
lemma Linked.withPal {pal : Pal} (h : Linked c b pb) (hc : pal.closed = pb.pal.closed) :
    Linked c b (pb.withPal pal) := h.keep rfl rfl rfl rfl rfl hc

/-- Every end of the pass is one of those above. -/
def AllEnd (c : ℕ) (b : Pb) (a : Answer) (x : Option Pass) : Prop := ∀ p, x = some p → Ends c b a p

lemma AllEnd.some {p : Pass} (h : Ends c b a p) : AllEnd c b a (some p) := by
  rintro q hq
  exact Option.some.inj hq ▸ h

lemma AllEnd.none : AllEnd c b a none := by
  rintro p hp
  cases hp

lemma AllEnd.map {β : Type} {x : Option β} {f : β → Pass}
    (h : ∀ r, x = Option.some r → Ends c b a (f r)) : AllEnd c b a (x.map f) := by
  rintro p hp
  obtain ⟨r, hr, rfl⟩ := Option.map_eq_some_iff.mp hp
  exact h r hr

lemma AllEnd.bind {β : Type} {x : Option β} {f : β → Option Pass}
    (h : ∀ r, x = Option.some r → AllEnd c b a (f r)) : AllEnd c b a (x.bind f) := by
  rintro p hp
  obtain ⟨r, hr, hp⟩ := Option.bind_eq_some_iff.mp hp
  exact h r hr p hp

end Pb

/-! ## The platform layer keeps the socket -/

namespace Pal

variable {p : Pal}

@[simp] lemma closed_handleSocketError (e : SocketError) :
    (p.handleSocketError e).1.closed = p.closed := by
  cases e <;> rfl

@[simp] lemma closed_deliver (n : Nat) : (p.deliver n).closed = p.closed := by
  simp [deliver, closed]

lemma closed_sendStatus {s : SendAnswer} {r : Pal × SendResult} (h : p.sendStatus s = some r) :
    r.1.closed = p.closed := by
  simp only [sendStatus] at h
  repeat' split at h
  all_goals first | cases h; rfl | cases h

lemma closed_send {data : Bytes} {s : SendAnswer} {r : Pal × SendResult}
    (h : p.send data s = some r) : r.1.closed = p.closed := by
  rw [send] at h
  split at h
  · have hc := closed_sendStatus h
    exact hc
  · cases h

lemma closed_startReadLine {q : Pal} (h : p.startReadLine = some q) : q.closed = p.closed := by
  rw [startReadLine] at h
  split at h <;> cases h
  rfl

lemma closed_startRead {n : Nat} {q : Pal} (h : p.startRead n = some q) : q.closed = p.closed := by
  rw [startRead] at h
  split at h <;> cases h
  rfl

@[simp] lemma closed_scanLine : p.scanLine.1.closed = p.closed := by
  rw [scanLine]
  repeat' split
  all_goals rfl

@[simp] lemma closed_tookBytes (n : Nat) : (p.tookBytes n).1.closed = p.closed := by
  rw [tookBytes]
  dsimp only
  split <;> rfl

lemma closed_lineReadStatus {a : RecvAnswer} {r : Pal × PubnubRes}
    (h : p.lineReadStatus a = some r) : r.1.closed = p.closed := by
  rw [lineReadStatus] at h
  dsimp only at h
  repeat' split at h
  all_goals first | cases h; done | (obtain rfl := Option.some.inj h; simp)
  exact closed_deliver _

lemma closed_readStatus {a : RecvAnswer} {r : Pal × PubnubRes}
    (h : p.readStatus a = some r) : r.1.closed = p.closed := by
  rw [readStatus] at h
  dsimp only at h
  repeat' split at h
  all_goals first | cases h; done | (obtain rfl := Option.some.inj h; simp)
  exact closed_deliver _

end Pal

/-- A `send` that ends the connection. -/
def SendAnswer.fails : SendAnswer → Bool
  | .accepted n => n == 0
  | .error e => e != .wouldBlock

lemma Pal.fails_of_sendStatus {p : Pal} {s : SendAnswer} {r : Pal × SendResult}
    (h : p.sendStatus s = some r) (hr : r.2 = .failed) : s.fails = true := by
  simp only [sendStatus] at h
  repeat' split at h
  all_goals cases h
  all_goals first | cases hr; done | skip
  · rfl
  · rename_i hne
    simpa [SendAnswer.fails] using hne

lemma Pal.fails_of_send {p : Pal} {data : Bytes} {s : SendAnswer} {r : Pal × SendResult}
    (h : p.send data s = some r) (hr : r.2 = .failed) : s.fails = true := by
  rw [send] at h
  split at h
  · exact fails_of_sendStatus h hr
  · cases h

namespace Pb

variable {c : ℕ} {b pb pb' : Pb} {a : Answer} {next : Next}

/-! ## Sending -/

/-- `pbpal_send`. -/
lemma Linked.pbpalSend {piece : Piece} {data : Bytes} {r : Pb × SendResult} (h : Linked c b pb)
    (hr : pb.pbpalSend a piece data = some r) :
    Linked c b r.1 ∧ r.1.state = pb.state ∧ (r.2 = .failed → a.send.fails = true) := by
  obtain ⟨q, hq, rfl⟩ := Option.map_eq_some_iff.mp hr
  have hpal : Linked c b (pb.withPal q.1) := h.withPal (Pal.closed_send hq)
  dsimp only
  split
  · exact ⟨hpal, rfl, Pal.fails_of_send hq⟩
  · refine ⟨⟨⟨⟨hpal.trans, hpal.log.trans (List.suffix_cons _ _)⟩, hpal.start, hpal.timer, ?_,
      hpal.queued⟩, hpal.once, hpal.socket⟩, rfl, Pal.fails_of_send hq⟩
    exact hpal.opened.observe rfl

lemma ends_sendAndGo {piece : Piece} {data : Bytes} {state : PbState} (h : Linked c b pb)
    (hs : state.unwatched = false) : AllEnd c b a (pb.sendAndGo a piece data state) := by
  refine AllEnd.map fun r hr => ?_
  obtain ⟨hl, _, _⟩ := h.pbpalSend hr
  split
  · exact ends_outcomeDetected hl .ioError nofun
  · exact Linked.goesOn (hl.keep rfl rfl rfl rfl rfl rfl) rfl hs

lemma ends_sendFailed (h : Linked c b pb) : AllEnd c b a (pb.sendFailed a) :=
  .some (ends_outcomeDetected h .ioError nofun)

/-- The branches that ask first whether the piece before has been sent. -/
lemma ends_afterStatus {done failed : Pb → Option Pass} (h : Linked c b pb)
    (hs : pb.state.unwatched = false) (hd : ∀ pal, Linked c b (pb.withPal pal) → AllEnd c b a (done (pb.withPal pal)))
    (hf : ∀ pal, a.status.fails = true → Linked c b (pb.withPal pal) →
      AllEnd c b a (failed (pb.withPal pal))) :
    AllEnd c b a (pb.afterStatus a done failed) := by
  refine AllEnd.bind fun r hr => ?_
  have hpal : Linked c b (pb.withPal r.1) := h.withPal (Pal.closed_sendStatus hr)
  dsimp only
  split
  · exact .some (hpal.goesOn rfl hs)
  · exact hd _ hpal
  · rename_i hfailed
    exact hf _ (Pal.fails_of_sendStatus hr hfailed) hpal

lemma ends_txGetSend {piece : Piece} {data : Bytes} (h : Linked c b pb)
    (hs : pb.state.unwatched = false) (hg : a.send.fails = false) :
    AllEnd c b a (pb.txGetSend a piece data) := by
  refine AllEnd.map fun r hr => ?_
  obtain ⟨hl, hst, hfails⟩ := h.pbpalSend hr
  rw [if_neg fun hf => absurd (hfails hf) (by simp [hg])]
  exact hl.goesOn rfl (by rw [show r.1.again.pb.state = pb.state from hst]; exact hs)

lemma ends_pbsTxGet (h : Linked c b pb) (hs : pb.state.unwatched = false)
    (hg : (a.status.fails || a.send.fails) = false) : AllEnd c b a (pb.pbsTxGet a) := by
  obtain ⟨hstatus, hsend⟩ := Bool.or_eq_false_iff.mp hg
  have hfailed {x : Option Pass} (hf : a.status.fails = true) : AllEnd c b a x :=
    absurd hf (by simp [hstatus])
  rw [pbsTxGet]
  split
  · refine ends_afterStatus h hs (fun pal hl => ?_) fun _ hf _ => hfailed hf
    dsimp only
    split
    · exact .none
    · split
      · exact ends_txGetSend (hl.keep rfl rfl rfl rfl rfl rfl) rfl hsend
      · exact ends_txGetSend (hl.keep rfl rfl rfl rfl rfl rfl) rfl hsend
  · refine ends_afterStatus h hs (fun pal hl => ?_) fun _ hf _ => hfailed hf
    dsimp only
    repeat' split
    all_goals first
      | exact .none
      | exact .some (Linked.goesOn (hl.keep rfl rfl rfl rfl rfl rfl) rfl rfl)
  · refine ends_afterStatus h hs (fun pal hl => ?_) fun _ hf _ => hfailed hf
    exact ends_txGetSend (hl.keep rfl rfl rfl rfl rfl rfl) rfl hsend

/-- `PBS_CONNECTED`, where a retry towards the proxy may begin. -/
lemma ends_pbsConnected (h : Closable c b pb) (hc : pb.pal.closed = false) :
    AllEnd c b a (pb.pbsConnected a) := by
  have hl : Linked c b
      { pb with shouldClose := !pb.options.useHttpKeepAlive, retryAfterClose := false } :=
    ⟨⟨⟨h.trans, h.log⟩, h.start, h.timer, h.opened, h.queued⟩, rfl, hc⟩
  rw [pbsConnected]
  dsimp only
  split
  · exact ends_sendAndGo hl rfl
  · split
    · have htls : Linked c b { pb with
          shouldClose := !pb.options.useHttpKeepAlive, retryAfterClose := false, tls := true } :=
        hl.keep rfl rfl rfl rfl rfl rfl
      split
      · exact ends_sendAndGo htls rfl
      · exact .some (Linked.goesOn (htls.keep rfl rfl rfl rfl rfl rfl) rfl rfl)
      · exact .some (ends_tlsFailed htls.closable nofun)
      · exact .some (ends_outcomeDetected htls .internalError nofun)
    · exact ends_sendAndGo hl rfl

lemma ends_pbsWaitTlsConnect (h : Linked c b pb) (hs : pb.state.unwatched = false) :
    AllEnd c b a (pb.pbsWaitTlsConnect a) := by
  rw [pbsWaitTlsConnect]
  split
  · exact ends_sendAndGo h rfl
  · exact .some (h.goesOn rfl hs)
  · exact .some (ends_tlsFailed h.closable nofun)
  · exact .some (ends_outcomeDetected h .internalError nofun)

lemma ends_awaitResponse (h : Linked c b pb) : AllEnd c b a pb.awaitResponse :=
  AllEnd.map fun _ hr =>
    Linked.goesOn (h.keep rfl rfl rfl rfl rfl (Pal.closed_startReadLine hr)) rfl rfl

lemma ends_sendFinHead (h : Linked c b pb) : AllEnd c b a (pb.sendFinHead a) := ends_sendAndGo h rfl

lemma ends_pbsTxScheme (h : Linked c b pb) (hs : pb.state.unwatched = false) :
    AllEnd c b a (pb.pbsTxScheme a) := by
  rw [pbsTxScheme]
  split
  · refine ends_afterStatus h hs (fun _ hl => .some ?_) fun _ _ hl => .some ?_
    · exact Linked.goesOn (hl.keep rfl rfl rfl rfl rfl rfl) rfl rfl
    · exact Linked.goesOn (hl.keep rfl rfl rfl rfl rfl rfl) rfl rfl
  · exact ends_afterStatus h hs (fun _ hl => ends_sendAndGo hl rfl) fun _ _ hl => ends_sendFailed hl

lemma ends_pbsTxHost (h : Linked c b pb) (hs : pb.state.unwatched = false) :
    AllEnd c b a (pb.pbsTxHost a) := by
  refine ends_afterStatus h hs (fun _ hl => ?_) fun _ _ hl => ends_sendFailed hl
  split <;> exact ends_sendAndGo hl rfl

lemma ends_pbsTxOrigin (h : Linked c b pb) (hs : pb.state.unwatched = false) :
    AllEnd c b a (pb.pbsTxOrigin a) := by
  refine ends_afterStatus h hs (fun _ hl => ?_) fun _ _ hl => ends_sendFailed hl
  split
  · split <;> exact ends_sendAndGo (hl.keep rfl rfl rfl rfl rfl rfl) rfl
  · split
    · exact ends_sendAndGo hl rfl
    · exact ends_sendFinHead hl

lemma ends_pbsTxFinHead (h : Linked c b pb) (hs : pb.state.unwatched = false) :
    AllEnd c b a (pb.pbsTxFinHead a) := by
  refine ends_afterStatus h hs (fun _ hl => ?_) fun _ _ hl => ends_sendFailed hl
  split
  · exact ends_sendAndGo hl rfl
  · exact ends_awaitResponse hl

/-! ## Starting and connecting -/

lemma Within.openSocket (h : Within c b pb) (ho : pb.retryAfterClose = false) :
    Linked c b pb.openSocket :=
  ⟨⟨⟨h.trans, h.log⟩, h.start, h.timer, h.opened, h.queued⟩, ho, rfl⟩

/-- A start that fails before there is a connection. -/
lemma ends_startFailed (h : Within c b pb) (ho : pb.retryAfterClose = false) (hu : pb.Unheard)
    (rslt : PubnubRes) (hn : next ≠ .again) : Ends c b a (pb.startFailed a rslt next) := by
  rw [startFailed]
  dsimp only
  rw [if_neg (by simp [ho])]
  refine ends_transOutcome ?_ (.inl rfl) hn
  exact ⟨⟨h.trans, h.log⟩, h.timer, h.queued, ho, hu,
    .inl ⟨h.opened, fun hs => absurd hs (by simp [h.start])⟩⟩

lemma ends_readyGotSocket {state : PbState} (h : Within c b pb) (ho : pb.retryAfterClose = false)
    (hu : pb.Unheard) (hs : state.unwatched = false) : Ends c b a (pb.readyGotSocket a state) := by
  have hl := h.openSocket ho
  rw [readyGotSocket]
  split
  · refine ends_startFailed ?_ ?_ ?_ .connectFailed nofun
    · exact ⟨⟨h.trans, h.log⟩, h.start, h.timer, h.opened, h.queued⟩
    · exact ho
    · exact hu
  · exact Linked.goesOn (hl.keep rfl rfl rfl rfl rfl rfl) rfl hs
  · exact Linked.goesOn (hl.keep rfl rfl rfl rfl rfl rfl) rfl hs

lemma ends_pbsReady (h : Within c b pb) (ho : pb.retryAfterClose = false) (hu : pb.Unheard) :
    Ends c b a (pb.pbsReady a) := by
  rw [pbsReady]
  split
  all_goals first
    | exact ends_readyGotSocket h ho hu rfl
    | exact ends_startFailed h ho hu .addrResolutionFailed nofun

/-- The three states that wait for the name and the connection. -/
lemma ends_connecting (h : Linked c b pb) (hs : pb.state.unwatched = false) :
    Ends c b a (pb.pbsWaitDnsSend a) ∧ Ends c b a (pb.pbsWaitDnsRcv a) ∧
      Ends c b a (pb.pbsWaitConnect a) := by
  have hopen := h.openSocket h.once
  simp only [pbsWaitDnsSend, pbsWaitDnsRcv, pbsWaitConnect]
  cases a.resolv
  all_goals refine ⟨?_, ?_, ?_⟩
  all_goals first
    | exact ends_outcomeDetected h _ nofun
    | exact h.goesOn rfl hs
    | exact Linked.goesOn (hopen.keep rfl rfl rfl rfl rfl rfl) rfl rfl
    | exact Linked.goesOn (h.keep rfl rfl rfl rfl rfl rfl) rfl rfl

/-- What the states do that only put the transaction into the queue. -/
lemma ends_enqueueForProcessing (hf : Follows b pb) (ht : pb.retryTimer = b.retryTimer)
    (h : pb.Open c) (hq : pb.queued = 0) (hw : pb.Wired) (ho : pb.retryAfterClose = false)
    (hst : pb.state = .ready ∨ pb.state = .keepAliveReady) (hg : a.enqueue ≠ .atOnce) :
    Ends c b a (pb.enqueueForProcessing a) := by
  have hu : pb.Unheard := by
    refine hw.unwatched ?_
    rcases hst with hst | hst <;> rw [hst] <;> rfl
  rw [enqueueForProcessing]
  split
  · refine ends_transOutcome ?_ (.inl rfl) nofun
    exact ⟨⟨hf.trans, hf.log⟩, ht, hq, ho, hu, .inl ⟨h, fun _ => rfl⟩⟩
  · rename_i henq
    exact absurd henq hg
  · refine .enqueues ⟨hf.trans, hf.log.trans (List.suffix_cons _ _)⟩ rfl rfl ?_
    refine ⟨⟨hw.once, hw.unwatched, hw.socket, hw.lost⟩, ?_, h.observe rfl, hst, ho⟩
    show pb.queued + 1 = 1
    rw [hq]

/-! ## Receiving -/

/-- `close_kept_alive_connection`, after which the request is sent once more. -/
lemma ends_closeKeptAliveConnection (h : Closable c b pb) (ho : pb.retryAfterClose = false) :
    Ends c b a (pb.closeKeptAliveConnection a).again := by
  have hk : Closable c b { pb with startedWhileKeptAlive := false } :=
    ⟨⟨⟨h.trans, h.log⟩, h.start, h.timer, h.opened, h.queued⟩, h.lost⟩
  obtain ⟨hw, hu⟩ := hk.pbpalClose
  have hr : ({ pb with startedWhileKeptAlive := false } : Pb).pbpalClose.retryAfterClose = false :=
    (pbpalClose_eq _).2.2.2.1.trans ho
  rw [closeKeptAliveConnection]
  split
  · exact .goesOn ⟨hw.trans, hw.log⟩ rfl h.start (hw.afterClose hu rfl (by simp [hr])) fun _ => rfl
  · split
    · exact .goesOn ⟨hw.trans, hw.log⟩ rfl h.start (hw.afterClose hu rfl (by simp [hr])) fun _ => rfl
    · exact .goesOn ⟨hw.trans, hw.log⟩ rfl h.start (hw.afterClose hu rfl (by simp [hr])) fun _ => rfl

lemma ends_statusLineRead (h : Linked c b pb) (hs : pb.state.unwatched = false) (rslt : PubnubRes) :
    Ends c b a (pb.statusLineRead a rslt) := by
  rw [statusLineRead.eq_def]
  split
  · exact h.goesOn rfl hs
  · split
    · exact Linked.goesOn (h.keep rfl rfl rfl rfl rfl rfl) rfl rfl
    · exact ends_outcomeDetected h .ioError nofun
  · split
    · exact ends_closeKeptAliveConnection h.closable h.once
    · exact ends_outcomeDetected h _ nofun
  · split
    · exact ends_closeKeptAliveConnection h.closable h.once
    · exact ends_outcomeDetected h _ nofun
  · exact ends_outcomeDetected h _ nofun

lemma Linked.realloc (h : Linked c b pb) (bytes : Nat) (succeeds : Bool) :
    Linked c b (pb.reallocReplyBuffer bytes succeeds).1 := by
  rw [reallocReplyBuffer]
  split
  · exact h.keep rfl rfl rfl rfl rfl rfl
  · exact h

lemma Linked.ensure (h : Linked c b pb) (succeeds : Bool) :
    Linked c b (pb.ensureReplyBuffer succeeds).1 := by
  rw [ensureReplyBuffer]
  split
  · exact h
  · split
    · exact h.keep rfl rfl rfl rfl rfl rfl
    · exact h

lemma ends_finishReply (h : Linked c b pb) (hn : next ≠ .again) :
    Ends c b a (pb.finishReply a next) := by
  have hens := h.ensure a.alloc
  rw [finishReply]
  dsimp only
  split
  · refine ends_outcomeDetected ?_ _ hn
    exact hens.keep rfl rfl rfl rfl rfl rfl
  · exact ends_outcomeDetected hens .replyTooBig hn

/-- `finish`: a retry towards the proxy goes on over the same connection, or closes it. -/
lemma ends_finish (h : Linked c b pb) (hn : next ≠ .again) : Ends c b a (pb.finish a next) := by
  have hfst : pb.pbproxyHandleFinish.1 = pb ∨
      pb.pbproxyHandleFinish.1 = { pb with proxyTunnelEstablished := true } := by
    rw [pbproxyHandleFinish]
    repeat' split
    all_goals first | exact .inl rfl | exact .inr rfl
  have hl : Linked c b pb.pbproxyHandleFinish.1 := by
    rcases hfst with hf | hf <;> rw [hf]
    · exact h
    · exact h.keep rfl rfl rfl rfl rfl rfl
  rw [finish]
  split
  · rename_i hfin
    rw [hfin] at hl
    refine ends_outcomeDetected ?_ .httpError hn
    exact hl.keep rfl rfl rfl rfl rfl rfl
  · rename_i hfin
    rw [hfin] at hl
    dsimp only
    split
    · refine ends_closeConnection ?_ (.inr rfl)
      exact ⟨⟨⟨hl.trans, hl.log⟩, hl.start, hl.timer, hl.opened, hl.queued⟩, hl.closable.lost⟩
    · refine .goesOn ⟨hl.trans, hl.log⟩ rfl hl.start ?_ fun _ => rfl
      refine ⟨⟨fun _ => rfl, fun hu => ?_, fun _ => hl.socket, hl.closable.lost⟩, hl.queued, .inl hl.opened⟩
      exact absurd hu (by simp [again, PbState.unwatched])
  · rename_i hfin
    rw [hfin] at hl
    exact ends_finishReply hl hn

lemma ends_endOfHeaders (h : Linked c b pb) : Ends c b a (pb.endOfHeaders a) := by
  rw [endOfHeaders]
  dsimp only
  split
  · exact Linked.goesOn (h.keep rfl rfl rfl rfl rfl rfl) rfl rfl
  · split
    · split
      · exact ends_finish (h.keep rfl rfl rfl rfl rfl rfl) nofun
      · refine ends_outcomeDetected ?_ .ioError nofun
        exact h.keep rfl rfl rfl rfl rfl rfl
    · exact Linked.goesOn (h.keep rfl rfl rfl rfl rfl rfl) rfl rfl

lemma Linked.proxyHeader {q : Pb} (h : Linked c b pb) (hq : pb.pbproxyHandleHttpHeader a = some q) :
    Linked c b q := by
  rw [pbproxyHandleHttpHeader] at hq
  split at hq
  · obtain rfl := Option.some.inj hq
    exact h.keep rfl rfl rfl rfl rfl rfl
  · cases hq
  · obtain rfl := Option.some.inj hq
    exact h

lemma ends_headerLine (h : Linked c b pb) : Ends c b a (pb.headerLine a) := by
  rw [headerLine]
  dsimp only
  split
  · exact Linked.goesOn (h.keep rfl rfl rfl rfl rfl rfl) rfl rfl
  split
  · have hr := h.realloc (toUnsigned (atoi (pb.httpBuf.drop 16))) a.alloc
    split
    · exact Linked.goesOn (hr.keep rfl rfl rfl rfl rfl rfl) rfl rfl
    · exact ends_outcomeDetected hr .replyTooBig nofun
  split
  · exact Linked.goesOn (h.keep rfl rfl rfl rfl rfl rfl) rfl rfl
  split
  · exact Linked.goesOn (h.keep rfl rfl rfl rfl rfl rfl) rfl rfl
  · split
    · exact ends_outcomeDetected h .authenticationFailed nofun
    · rename_i hq
      exact Linked.goesOn ((h.proxyHeader hq).keep rfl rfl rfl rfl rfl rfl) rfl rfl

lemma ends_headerLineRead (h : Linked c b pb) (hs : pb.state.unwatched = false) (rslt : PubnubRes) :
    Ends c b a (pb.headerLineRead a rslt) := by
  rw [headerLineRead.eq_def]
  split
  · exact h.goesOn rfl hs
  · exact Linked.goesOn (h.keep rfl rfl rfl rfl rfl rfl) rfl rfl
  · split
    · exact ends_endOfHeaders h
    · exact ends_headerLine h
  · exact ends_outcomeDetected h _ nofun

lemma ends_pbsRxBody (h : Linked c b pb) : AllEnd c b a (pb.pbsRxBody a) := by
  rw [pbsRxBody]
  split
  · exact AllEnd.map fun _ hr =>
      Linked.goesOn (h.keep rfl rfl rfl rfl rfl (Pal.closed_startRead hr)) rfl rfl
  · exact .some (ends_finish h nofun)

lemma ends_bodyRead (h : Linked c b pb) (hs : pb.state.unwatched = false) (rslt : PubnubRes) :
    AllEnd c b a (pb.bodyRead a rslt) := by
  rw [bodyRead.eq_def]
  split
  · exact .some (h.goesOn rfl hs)
  · dsimp only
    split
    · exact .some (Linked.goesOn (h.keep rfl rfl rfl rfl rfl rfl) rfl rfl)
    · exact .none
  · exact .some (ends_outcomeDetected h _ nofun)

lemma ends_chunkLenRead (h : Linked c b pb) (hs : pb.state.unwatched = false) (rslt : PubnubRes) :
    Ends c b a (pb.chunkLenRead a rslt) := by
  rw [chunkLenRead.eq_def]
  split
  · exact h.goesOn rfl hs
  · dsimp only
    split
    · exact ends_finish h nofun
    · have hr := h.realloc (pb.httpBufLen + strtoul pb.httpBuf % 2 ^ 32) a.alloc
      split
      · exact Linked.goesOn (hr.keep rfl rfl rfl rfl rfl rfl) rfl rfl
      · exact ends_outcomeDetected hr .replyTooBig nofun
  · exact ends_outcomeDetected h _ nofun

lemma ends_pbsRxBodyChunk (h : Linked c b pb) : AllEnd c b a pb.pbsRxBodyChunk := by
  rw [pbsRxBodyChunk]
  split
  · exact AllEnd.map fun _ hr =>
      Linked.goesOn (h.keep rfl rfl rfl rfl rfl (Pal.closed_startRead hr)) rfl rfl
  · exact .some (Linked.goesOn (h.keep rfl rfl rfl rfl rfl rfl) rfl rfl)

lemma ends_chunkRead (h : Linked c b pb) (hs : pb.state.unwatched = false) (rslt : PubnubRes) :
    AllEnd c b a (pb.chunkRead a rslt) := by
  rw [chunkRead.eq_def]
  split
  · exact .some (h.goesOn rfl hs)
  · dsimp only
    split
    · refine .some (Linked.goesOn (Linked.keep h ?_ ?_ ?_ ?_ ?_ ?_) rfl rfl)
      all_goals
        simp only [copyChunk, again]
        split <;> rfl
    · exact .none
  · exact .some (ends_outcomeDetected h _ nofun)

/-! ## Closing -/

/-- The states that wait for the connection to be closed. -/
lemma ends_whenClosed {closed : Pb → Pass} (hr : pb.Running c) (hf : Follows b pb)
    (hb : b.state.startable = false) (hs : pb.state.unwatched = true) (hst : pb.state.startable = false)
    (ho : pb.retryAfterClose = true → pb.Open c)
    (hc : pb.retryAfterClose = false → Ends c b a (closed pb)) :
    Ends c b a (pb.whenClosed a closed) := by
  rw [whenClosed]
  split
  · split
    · rename_i hretry
      refine .goesOn ⟨hf.trans, hf.log⟩ rfl hb ?_ fun _ => rfl
      exact ⟨⟨fun _ => rfl, fun _ => hr.unwatched hs, fun ht => absurd ht (by simp [again, PbState.hasSocket]),
        hr.lost⟩, hr.queued, .inl (ho hretry)⟩
    · rename_i hretry
      exact hc (by simpa using hretry)
  · exact .goesOn hf rfl hb hr fun ht => absurd ht (by simp [brk, hst])

/-- `PBS_WAIT_CANCEL`, also where nothing is under way. -/
lemma ends_pbsWaitCancel (hr : pb.Running c) (hf : Follows b pb) (hb : b.state.startable = false) :
    Ends c b a (pb.pbsWaitCancel a) := by
  obtain ⟨hu, hq⟩ := unheard_pbpalClose hr.lost hr.queued
  obtain ⟨ht, hl, _, hrt, hlr⟩ := pbpalClose_eq pb
  have hrun : { pb.pbpalClose with state := .waitCancelClose }.Running c := by
    refine ⟨⟨fun _ => rfl, fun _ => hu, fun h => absurd h (by simp [PbState.hasSocket]), fun _ => hu⟩, hq, ?_⟩
    refine hr.owes.imp (fun ho => ho.congr ht hl) fun hs => ?_
    refine ⟨?_, ht.trans hs.trans, hlr.trans hs.cancelled, .inr rfl, hrt.trans hs.once, hu.2⟩
    obtain ⟨p, hp, hn⟩ := hs.counts
    exact ⟨p, hl ▸ hp, hn⟩
  have hfollows : Follows b { pb.pbpalClose with state := .waitCancelClose } :=
    ⟨ht.trans hf.trans, hl ▸ hf.log⟩
  rw [pbsWaitCancel]
  dsimp only
  split
  · exact .goesOn hfollows rfl hb hrun fun h => absurd h (by simp [brk, PbState.startable])
  · exact .goesOn hfollows rfl hb hrun fun _ => rfl

/-- The outcome that is reported when a connection has been closed. -/
lemma Running.reportable (hr : pb.Running c) (hf : Follows b pb) (ht : pb.retryTimer = b.retryTimer)
    (hb : b.state.startable = false) (ho : pb.retryAfterClose = false)
    (hs : pb.state.unwatched = true) : Reportable c b pb := by
  refine ⟨hf, ht, hr.queued, ho, hr.unwatched hs, ?_⟩
  refine hr.owes.imp (fun h => ⟨h, fun hs => absurd hs (by simp [hb])⟩) fun h => ?_
  exact ⟨h.trans, h.counts, by rw [h.cancelled]; rfl⟩

/-- The first pass of a transaction over a connection that was kept alive. -/
lemma ends_pbsKeepAliveReady (h : Linked c b pb) (hu : pb.Unheard) :
    AllEnd c b a (pb.pbsKeepAliveReady a) := by
  have hgot : Linked c b { pb.gotSocket with state := .txGet } := h.keep rfl rfl rfl rfl rfl rfl
  rw [pbsKeepAliveReady]
  split
  · refine .some (ends_transOutcome ?_ (.inl rfl) nofun)
    exact ⟨⟨h.trans, h.log⟩, h.timer, h.queued, h.once, hu,
      .inl ⟨h.opened, fun hs => absurd hs (by simp [h.start])⟩⟩
  all_goals
    refine AllEnd.map fun r hr => ?_
    obtain ⟨hsent, hstate, _⟩ := hgot.pbpalSend hr
    split
    · exact ends_closeKeptAliveConnection hsent.closable hsent.once
    · exact hsent.goesOn rfl (by rw [show r.1.again.pb.state = .txGet from hstate]; rfl)

/-! ## The switch -/

lemma Running.opened (hr : pb.Running c) (h : pb.state ≠ .waitCancel ∧ pb.state ≠ .waitCancelClose) :
    pb.Open c := by
  refine hr.owes.resolve_right fun hs => ?_
  exact hs.state.elim h.1 h.2

/-- What may be assumed of the answers: the queue of the callback interface never asks to go on
    at once, and in `PBS_TX_GET` whatever is sent is accepted sooner or later. -/
def outcomesOnce (pb : Pb) (a : Answer) : Bool :=
  a.enqueue != .atOnce && (pb.state != .txGet || !(a.status.fails || a.send.fails))

/-- **One pass.** -/
theorem Running.pass (hr : pb.Running c) (hg : pb.outcomesOnce a = true) :
    AllEnd c pb a (pb.pass a) := by
  obtain ⟨henq, htx⟩ := Bool.and_eq_true_iff.mp hg
  have henq : a.enqueue ≠ .atOnce := by simpa using henq
  have hf : Follows pb pb := ⟨rfl, List.suffix_rfl⟩
  have hwithin (ho : pb.Open c) (hs : pb.state.startable = false) : Within c pb pb :=
    ⟨hf, hs, rfl, ho, hr.queued⟩
  have honce (hs : pb.state.mayRetry = false) : pb.retryAfterClose = false := by
    cases ht : pb.retryAfterClose with
    | false => rfl
    | true => exact absurd (hr.once ht) (by simp [hs])
  have hopen {st : PbState} (hst : pb.state = st) (hs : (st == .waitCancel || st == .waitCancelClose) = false) :
      pb.Open c := by
    refine hr.opened ?_
    rw [hst]
    constructor <;> rintro rfl <;> simp at hs
  have hlinked {st : PbState} (hst : pb.state = st) (hs : st.startable = false) (hm : st.mayRetry = false)
      (hk : st.hasSocket = true) (hn : (st == .waitCancel || st == .waitCancelClose) = false) :
      Linked c pb pb :=
    ⟨hwithin (hopen hst hn) (hst ▸ hs), honce (hst ▸ hm), hr.socket (hst ▸ hk)⟩
  rw [Pb.pass]
  cases hst : pb.state with
  | null | waitRetry =>
      exact .some (.goesOn hf rfl (by rw [hst]; rfl) hr fun h => absurd h (by simp [brk, hst, PbState.startable]))
  | idle =>
      have ho := hopen hst rfl
      have hu := hr.unwatched (by rw [hst]; rfl)
      refine .some (ends_enqueueForProcessing ?_ ?_ ?_ ?_ ?_ ?_ (.inl rfl) henq)
      · exact ⟨rfl, List.suffix_rfl⟩
      · rfl
      · exact ho
      · exact hr.queued
      · exact ⟨fun h => absurd h (by simp [initializeFieldsInStateIdle]), fun _ => hu,
          fun h => absurd h (by simp [PbState.hasSocket]), fun _ => hu⟩
      · rfl
  | retry =>
      have ho := hopen hst rfl
      have hu := hr.unwatched (by rw [hst]; rfl)
      refine .some (.goesOn ⟨rfl, List.suffix_rfl⟩ rfl (by rw [hst]; rfl) ?_ fun _ => rfl)
      refine ⟨⟨fun h => absurd h (by simp [pbsRetry, again]), fun _ => hu, fun h => ?_, fun _ => hu⟩,
        hr.queued, .inl ho⟩
      exact absurd h (by simp [pbsRetry, again, PbState.hasSocket])
  | ready =>
      refine .some (ends_pbsReady (hwithin (hopen hst rfl) (by rw [hst]; rfl)) (honce (by rw [hst]; rfl)) ?_)
      exact hr.unwatched (by rw [hst]; rfl)
  | waitDnsSend =>
      exact .some (ends_connecting (hlinked hst rfl rfl rfl rfl) (by rw [hst]; rfl)).1
  | waitDnsRcv =>
      exact .some (ends_connecting (hlinked hst rfl rfl rfl rfl) (by rw [hst]; rfl)).2.1
  | waitConnect =>
      exact .some (ends_connecting (hlinked hst rfl rfl rfl rfl) (by rw [hst]; rfl)).2.2
  | connected =>
      have hc := hr.socket (by rw [hst]; rfl)
      refine ends_pbsConnected ⟨hwithin (hopen hst rfl) (by rw [hst]; rfl), hr.lost⟩ hc
  | waitTlsConnect => exact ends_pbsWaitTlsConnect (hlinked hst rfl rfl rfl rfl) (by rw [hst]; rfl)
  | txGet =>
      exact ends_pbsTxGet (hlinked hst rfl rfl rfl rfl) (by rw [hst]; rfl) (by simpa [hst] using htx)
  | txScheme => exact ends_pbsTxScheme (hlinked hst rfl rfl rfl rfl) (by rw [hst]; rfl)
  | txHost => exact ends_pbsTxHost (hlinked hst rfl rfl rfl rfl) (by rw [hst]; rfl)
  | txPortNum | txPath | txVer =>
      exact ends_afterStatus (hlinked hst rfl rfl rfl rfl) (by rw [hst]; rfl)
        (fun _ hl => ends_sendAndGo hl rfl) fun _ _ hl => ends_sendFailed hl
  | txOrigin => exact ends_pbsTxOrigin (hlinked hst rfl rfl rfl rfl) (by rw [hst]; rfl)
  | txExtraHeaders =>
      exact ends_afterStatus (hlinked hst rfl rfl rfl rfl) (by rw [hst]; rfl)
        (fun _ hl => ends_sendFinHead hl) fun _ _ hl => ends_sendFailed hl
  | txFinHead => exact ends_pbsTxFinHead (hlinked hst rfl rfl rfl rfl) (by rw [hst]; rfl)
  | txBody =>
      exact ends_afterStatus (hlinked hst rfl rfl rfl rfl) (by rw [hst]; rfl)
        (fun _ hl => ends_awaitResponse hl) fun _ _ hl => ends_sendFailed hl
  | rxHttpVer =>
      refine AllEnd.map fun r hr' => ends_statusLineRead ?_ (by rw [withPal, hst]; rfl) _
      exact (hlinked hst rfl rfl rfl rfl).withPal (Pal.closed_lineReadStatus hr')
  | rxHeaders =>
      refine AllEnd.map fun _ hr' => Linked.goesOn ?_ rfl rfl
      exact (hlinked hst rfl rfl rfl rfl).keep rfl rfl rfl rfl rfl (Pal.closed_startReadLine hr')
  | rxHeaderLine =>
      refine AllEnd.map fun r hr' => ends_headerLineRead ?_ (by rw [withPal, hst]; rfl) _
      exact (hlinked hst rfl rfl rfl rfl).withPal (Pal.closed_lineReadStatus hr')
  | rxBody => exact ends_pbsRxBody (hlinked hst rfl rfl rfl rfl)
  | rxBodyWait =>
      refine AllEnd.bind fun r hr' => ends_bodyRead ?_ (by rw [withPal, hst]; rfl) _
      exact (hlinked hst rfl rfl rfl rfl).withPal (Pal.closed_readStatus hr')
  | rxChunkLen =>
      refine AllEnd.map fun _ hr' => Linked.goesOn ?_ rfl rfl
      exact (hlinked hst rfl rfl rfl rfl).keep rfl rfl rfl rfl rfl (Pal.closed_startReadLine hr')
  | rxChunkLenLine =>
      refine AllEnd.map fun r hr' => ends_chunkLenRead ?_ (by rw [withPal, hst]; rfl) _
      exact (hlinked hst rfl rfl rfl rfl).withPal (Pal.closed_lineReadStatus hr')
  | rxBodyChunk => exact ends_pbsRxBodyChunk (hlinked hst rfl rfl rfl rfl)
  | rxBodyChunkWait =>
      refine AllEnd.bind fun r hr' => ends_chunkRead ?_ (by rw [withPal, hst]; rfl) _
      exact (hlinked hst rfl rfl rfl rfl).withPal (Pal.closed_readStatus hr')
  | waitClose | waitCancelClose =>
      have hb : pb.state.startable = false := by rw [hst]; rfl
      have hu : pb.state.unwatched = true := by rw [hst]; rfl
      refine .some (ends_whenClosed hr hf hb hu hb (fun ht => ?_) fun ho => ?_)
      · refine hr.owes.resolve_right fun hs => ?_
        exact absurd ht (by simp [hs.once])
      · exact ends_transOutcome (hr.reportable hf rfl hb ho hu) (.inl rfl) nofun
  | waitCancel => exact .some (ends_pbsWaitCancel hr hf (by rw [hst]; rfl))
  | waitCancelDns =>
      refine .some (ends_closeConnection ?_ (.inr rfl))
      exact ⟨⟨⟨rfl, List.suffix_rfl⟩, by rw [hst]; rfl, rfl, hopen hst rfl, hr.queued⟩, hr.lost⟩
  | keepAliveIdle =>
      have ho := hopen hst rfl
      have hu := hr.unwatched (by rw [hst]; rfl)
      have hc := hr.socket (by rw [hst]; rfl)
      have hr' := honce (by rw [hst]; rfl)
      refine .some (ends_enqueueForProcessing ?_ ?_ ?_ ?_ ?_ ?_ (.inr rfl) henq)
      · exact ⟨rfl, List.suffix_rfl⟩
      · rfl
      · exact ho
      · exact hr.queued
      · exact ⟨fun h => absurd h (by simp [hr']), fun _ => hu, fun _ => hc, fun _ => hu⟩
      · exact hr'
  | keepAliveReady =>
      exact ends_pbsKeepAliveReady (hlinked hst rfl rfl rfl rfl) (hr.unwatched (by rw [hst]; rfl))
  | keepAliveWaitClose =>
      have hb : pb.state.startable = false := by rw [hst]; rfl
      have hu : pb.state.unwatched = true := by rw [hst]; rfl
      have ho := hopen hst rfl
      refine .some (ends_whenClosed hr hf hb hu hb (fun _ => ho) fun hro => ?_)
      exact .goesOn ⟨rfl, List.suffix_rfl⟩ rfl hb
        ((hwithin ho hb).afterClose (hr.unwatched hu) rfl fun h => absurd h (by simp [hro])) fun _ => rfl
  | waitCancelKeepalive =>
      refine .some (ends_closeKeptAliveConnection ?_ (honce (by rw [hst]; rfl)))
      exact ⟨hwithin (hopen hst rfl) (by rw [hst]; rfl), hr.lost⟩

end Pb

end PubNub
