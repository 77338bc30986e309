import PubNubCore.Lib.Machine
import PubNubCore.Network.Netcore

/-!
# The runs of a context

The transaction state machine with those who call it, as a machine: the user (outside of any
callback and inside of one), the thread that processes the queue, the poller, the timers and the
thread of the retry timer.  All of them hold `pb->monitor` while they work on the context, so
they take turns.

The C functions that have been entered and have not returned are on a stack.  `pbnc_fsm` can be
there several times: the callback for an outcome is called from the middle of a pass, and may
start the next transaction.
-/

namespace PubNub

/-- A C function that has not returned. -/
inductive Frame
  /-- `pbnc_fsm`, before the `switch` -/
  | fsm
  /-- the user's callback -/
  | user
  /-- `pbnc_fsm`, in the middle of a pass -/
  | rest (keptAlive : Bool) (next : Next)
  /-- `pbcc_request_retry_timer_run_`, which has called `pbnc_fsm` -/
  | retryThread
  deriving DecidableEq, Repr

/-- A context with the functions that work on it.  `count` is the number of transactions that
    have been started; `hung` is set when a thread waits for ever. -/
structure Net where
  pb : Pb
  stack : List Frame
  count : Nat
  hung : Bool

/-- A step of the run: a call of the user, a pass of the state machine, something that happens
    on the network or to a timer.  `room` tells whether the queue has a place left, `dns` whether
    another DNS server is left to be asked. -/
inductive NetStep
  | start (r : Request)
  | cancel (room : Bool)
  | callbackReturns
  | fsm (a : Answer)
  | processQueue
  | pollEvent (room : Bool)
  | timeout (room dns : Bool)
  | retryExpired
  | arrive (bytes : Bytes)

/-- The request is one which the functions of the API prepare: the URL and the body are C
    strings, and they fit into `core.http_buf`. -/
def Request.fits (r : Request) : Bool :=
  r.url ≠ [] && r.url.all (· != 0) && r.body.all (· != 0) &&
    r.url.length + 2 + (if r.compressed then 0 else r.body.length) ≤ pubnubBufMaxlen

/-- Does the pass go on with `goto next_state`?  A `break` in the state `PBS_RETRY` does, too. -/
def Next.goesOn (n : Next) (pb : Pb) : Bool :=
  match n with
  | .again => true
  | .ret => false
  | .brk => pb.state == .retry
  | .againIfRetry => pb.retryAfterClose || pb.state == .retry

namespace Pb

variable (pb : Pb)

/-- What is left of `outcome_detected` once the outcome has been reported. -/
def afterOutcome (keptAlive : Bool) : Pb :=
  if keptAlive then { pb with retryAfterClose := false } else pb

/-- What is left of the thread of the retry timer once the state machine has returned. -/
def retryThreadEnds : Pb :=
  { pb with retryTimer := if pb.retryTimer = .null then .null else .stopped }

/-- The default of `pbnc_stop`. -/
def stopDefault (room : Bool) : Pb := { pb with state := .waitCancel }.requeue room

/-- `pbnc_stop`, once the transaction has a connection that was kept alive. -/
def stopKeptAlive (room : Bool) : Pb :=
  if pb.lastResult = .timeout && pb.startedWhileKeptAlive then
    { pb with state := .waitCancelKeepalive }.requeue room
  else pb.stopDefault room

/-- `pbnc_stop` while the name is resolved or the connection is made. -/
def stopConnecting (room dns : Bool) : Pb :=
  if pb.lastResult = .timeout then
    if pb.state = .waitConnect then
      { pb with lastResult := .waitConnectTimeout }.stopDefault room
    else if dns then { pb with state := .waitCancelDns }.requeue room
    else { pb with lastResult := .addrResolutionFailed }.stopDefault room
  else pb.stopDefault room

/-- `pbnc_stop`. -/
def pbncStop (rslt : PubnubRes) (room dns : Bool) : Pb :=
  let pb := { pb with lastResult := rslt }
  match pb.state with
  | .waitCancel | .waitCancelClose | .null => pb
  | .waitDnsSend | .waitDnsRcv | .waitConnect => pb.stopConnecting room dns
  | .idle => { pb with trans := none }
  | .keepAliveIdle => { pb with trans := none }.stopKeptAlive room
  | .rxHttpVer => pb.stopKeptAlive room
  | _ => pb.stopDefault room

end Pb

namespace Net

variable (s : Net)

/-- Returns from the functions that have nothing left to do. -/
def unwind (pb : Pb) : List Frame → Pb × List Frame
  | .rest keptAlive next :: rest =>
      if next.goesOn (pb.afterOutcome keptAlive) then (pb.afterOutcome keptAlive, .fsm :: rest)
      else unwind (pb.afterOutcome keptAlive) rest
  | .retryThread :: rest => unwind pb.retryThreadEnds rest
  | stack => (pb, stack)

/-- Goes on with the functions on the stack. -/
def proceed (pb : Pb) (stack : List Frame) : Net :=
  { s with pb := (unwind pb stack).1, stack := (unwind pb stack).2 }

/-- Goes on after a pass. -/
def endPass (p : Pass) (stack : List Frame) : Net :=
  let stack := .rest p.keptAlive p.next :: stack
  match p.outcome with
  | .none => s.proceed p.pb stack
  | .callback => { s with pb := p.pb, stack := .user :: stack }
  | .fsm => { s with pb := p.pb, stack := .fsm :: stack }
  | .hang => { s with pb := p.pb, stack := stack, hung := true }

/-- The user may call a function of the API: nothing is going on, or it is the callback that
    calls. -/
def userCalls : Bool := !s.hung && (s.stack == [] || s.stack.head? == some .user)

/-- None of the functions is at work. -/
def atRest : Bool := !s.hung && s.stack == []

/-- The start of a transaction by a function of the API. -/
def start (r : Request) : Net :=
  { s with
    pb := { s.pb.prepare r with trans := some s.count, lastResult := .started }.observe
      (.started s.count r)
    stack := .fsm :: s.stack
    count := s.count + 1 }

/-- The thread of the retry timer wakes up. -/
def retryExpired : Net :=
  if s.pb.state = .waitRetry then
    { s with pb := { s.pb with state := .retry, retryTimer := .calling }
             stack := [.fsm, .retryThread] }
  else { s with pb := { s.pb with retryTimer := .stopped } }

/-- Bytes arrive from the peer. -/
def arrive (bytes : Bytes) : Net :=
  { s with pb := { s.pb with
      pal := { s.pb.pal with socket := s.pb.pal.socket.map (· ++ bytes) } } }

/-- The steps of a context. -/
def step : NetStep → Option Net
  | .start r => if s.userCalls && s.pb.canStart && r.fits then some (s.start r) else none
  | .cancel room =>
      if s.userCalls then some { s with pb := s.pb.pbncStop .cancelled room false } else none
  | .callbackReturns =>
      match s.hung, s.stack with
      | false, .user :: rest => some (s.proceed s.pb rest)
      | _, _ => none
  | .fsm a =>
      match s.hung, s.stack with
      | false, .fsm :: rest => (s.pb.pass a).map fun p => s.endPass p rest
      | _, _ => none
  | .processQueue =>
      if s.atRest && 0 < s.pb.queued then
        some { s with pb := { s.pb with queued := s.pb.queued - 1 }, stack := [.fsm] }
      else none
  | .pollEvent room => if s.atRest && s.pb.watched then some { s with pb := s.pb.requeue room } else none
  | .timeout room dns =>
      if s.atRest && s.pb.timer then
        some { s with pb := { s.pb with timer := false }.pbncStop .timeout room dns }
      else none
  | .retryExpired => if s.atRest && s.pb.retryTimer = .waiting then some s.retryExpired else none
  | .arrive bytes => some (s.arrive bytes)

end Net

/-- A context with its options, before anything has happened. -/
def netMachine (o : PubnubOptions) : Machine Net NetStep where
  init := { pb := Pb.init o, stack := [], count := 0, hung := false }
  step := Net.step

/-! ## Runs on a willing platform -/

/-- Everything succeeds at once, and `recv` delivers what has arrived. -/
def willing : Answer where
  enqueue := .atOnce
  gotSocket := .atOnce
  recv := .bytes pubnubBufMaxlen

/-- A request which fetches the time. -/
def timeRequest : Request where
  method := .sendViaGET
  url := ascii "/time/0"

/-- A transaction is started on a new context, its request is sent, and this is answered. -/
def answeredRun (r : Request) (response : Bytes) : List NetStep :=
  .start r :: List.replicate 8 (.fsm willing) ++ [.arrive response]

end PubNub
