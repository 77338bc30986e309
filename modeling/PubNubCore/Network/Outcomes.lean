import PubNubCore.Network.PassEnds

/-!
# Every transaction has one outcome

In the runs of the callback interface the log of a context keeps to the rules of a journal, so
that no transaction is reported twice, and nothing is sent or enqueued for it once it has been
reported.

There is one way out: `PBS_TX_GET` goes round the loop after it has ended a transaction because
something could not be sent, and the state machine starts the same transaction again.  The guard
of the runs leaves this out.  A second way is found where a transaction may go without a report:
`pbcc_request_retry_timer_start` does nothing while the timer is running, and it is running while
its own thread makes the retry.  Without that, a context that is ready for the next transaction
has reported all those before.
-/

namespace PubNub

namespace Pb

variable {c : ℕ} {b pb pb' : Pb} {a : Answer} {next : Next}

/-! ## Between the passes -/

lemma Wired.afterOutcome (h : pb.Wired) (keptAlive : Bool) : (pb.afterOutcome keptAlive).Wired := by
  cases keptAlive with
  | false => exact h
  | true => exact ⟨fun ht => absurd ht (by simp [Pb.afterOutcome]), h.unwatched, h.socket, h.lost⟩

lemma Stray.afterOutcome (h : pb.Stray c) (keptAlive : Bool) : (pb.afterOutcome keptAlive).Stray c := by
  cases keptAlive with
  | false => exact h
  | true => exact ⟨h.counts, h.trans, h.cancelled, h.state, rfl, h.timer⟩

lemma Waiting.afterOutcome (h : pb.Waiting c) (keptAlive : Bool) :
    (pb.afterOutcome keptAlive).Waiting c := by
  refine ⟨h.toWired.afterOutcome keptAlive, ?_, ?_, ?_⟩
  · cases keptAlive <;> exact h.queued
  · cases keptAlive <;> exact h.quiet
  · refine h.owes.imp (fun hs => ?_) (Or.imp (fun ho => ?_) fun hs => hs.afterOutcome keptAlive)
    · cases keptAlive <;> exact hs
    · cases keptAlive <;> exact ho

lemma Running.afterOutcome (h : pb.Running c) (keptAlive : Bool) :
    (pb.afterOutcome keptAlive).Running c := by
  refine ⟨h.toWired.afterOutcome keptAlive, ?_, ?_⟩
  · cases keptAlive <;> exact h.queued
  · refine h.owes.imp (fun ho => ?_) fun hs => hs.afterOutcome keptAlive
    cases keptAlive <;> exact ho

lemma Waiting.retryThreadEnds (h : pb.Waiting c) : pb.retryThreadEnds.Waiting c := by
  refine ⟨⟨h.once, h.unwatched, h.socket, h.lost⟩, h.queued, h.quiet, ?_⟩
  exact h.owes.imp id (Or.imp id fun hs =>
    ⟨hs.counts, hs.trans, hs.cancelled, hs.state, hs.once, hs.timer⟩)

/-- What is known while the user's callback runs. -/
def Calm (pb : Pb) : Prop := pb.retryAfterClose = false ∧ pb.state.inCallback = true

/-- Nothing goes on by itself in the middle of a callback. -/
lemma Calm.not_goesOn (h : pb.Calm) (hn : next ≠ .again) : next.goesOn pb = false := by
  have hst : (pb.state == .retry) = false := by
    have hs := h.2
    revert hs
    cases pb.state <;> simp [PbState.inCallback]
  cases next with
  | again => exact absurd rfl hn
  | ret => rfl
  | brk => exact hst
  | againIfRetry => simp [Next.goesOn, h.1, hst]

lemma Calm.afterOutcome (h : pb.Calm) (keptAlive : Bool) : (pb.afterOutcome keptAlive).Calm := by
  cases keptAlive with
  | false => exact h
  | true => exact ⟨rfl, h.2⟩

/-- A context that is to go on is one for which a pass can be made. -/
lemma Waiting.running (h : pb.Waiting c) (hn : next ≠ .again) (hgo : next.goesOn pb = true)
    (hq : pb.queued = 0) : pb.Running c := by
  have hmay : pb.state = .retry ∨ pb.retryAfterClose = true := by
    cases next with
    | again => exact absurd rfl hn
    | ret => exact absurd hgo (by simp [Next.goesOn])
    | brk => exact .inl (eq_of_beq hgo)
    | againIfRetry => exact (Bool.or_eq_true_iff.mp hgo).symm.imp eq_of_beq id
  refine ⟨h.toWired, hq, .inl ?_⟩
  rcases h.owes with ⟨hs, _⟩ | ⟨_, ho⟩ | hs
  · rcases hmay with hst | hr
    · exact absurd hs (by simp [hst, PbState.startable])
    · have hm := h.once hr
      revert hs hm
      cases pb.state <;> simp [PbState.startable, PbState.mayRetry]
  · exact ho
  · rcases hmay with hst | hr
    · exact absurd (hst ▸ hs.state) (by simp)
    · exact absurd hr (by simp [hs.once])

end Pb

/-! ## The stack -/

/-- The state machine can be called by this function, or called again after it. -/
def Frame.resumable : Frame → Bool
  | .fsm | .rest _ .again => false
  | _ => true

/-- What the functions that have not returned say about the context. -/
def Shaped (c : ℕ) (pb : Pb) : List Frame → Prop
  | .fsm :: stack => pb.Running c ∧ (∀ f ∈ stack, f.resumable = true) ∧
      (.user ∈ stack → pb.state.startable = true)
  | stack => pb.Waiting c ∧ (∀ f ∈ stack, f.resumable = true) ∧ (.user ∈ stack → pb.Calm)

namespace Net

open Pb

variable {c : ℕ} {pb : Pb}

lemma shaped_of_waiting {stack : List Frame} (h : pb.Waiting c)
    (hs : ∀ f ∈ stack, f.resumable = true) (hu : .user ∈ stack → pb.Calm) : Shaped c pb stack := by
  cases stack with
  | nil => exact ⟨h, hs, hu⟩
  | cons f rest =>
      cases f with
      | fsm => exact absurd (hs .fsm List.mem_cons_self) (by simp [Frame.resumable])
      | user => exact ⟨h, hs, hu⟩
      | rest keptAlive next => exact ⟨h, hs, hu⟩
      | retryThread => exact ⟨h, hs, hu⟩

/-- **Returning** keeps the shape.  Where a pass goes on although nothing woke it up, the queue
    must be empty. -/
lemma shaped_unwind (h : pb.Waiting c) {stack : List Frame}
    (hs : ∀ f ∈ stack, f.resumable = true) (hu : .user ∈ stack → pb.Calm)
    (hq : ∀ next : Next, next ≠ .again → next.goesOn pb = true → pb.queued = 0) :
    Shaped c (unwind pb stack).1 (unwind pb stack).2 := by
  induction stack generalizing pb with
  | nil => exact ⟨h, hs, hu⟩
  | cons f rest ih =>
      have hrest : ∀ f ∈ rest, f.resumable = true := fun f hf => hs f (List.mem_cons_of_mem _ hf)
      cases f with
      | fsm => exact absurd (hs .fsm List.mem_cons_self) (by simp [Frame.resumable])
      | user => exact ⟨h, hs, hu⟩
      | rest keptAlive next =>
          have hn : next ≠ .again := by
            rintro rfl
            exact absurd (hs _ List.mem_cons_self) (by simp [Frame.resumable])
          have hmono {next : Next} (hgo : next.goesOn (pb.afterOutcome keptAlive) = true) :
              next.goesOn pb = true := by
            cases keptAlive with
            | false => exact hgo
            | true =>
                cases next with
                | again => rfl
                | ret => exact hgo
                | brk => exact hgo
                | againIfRetry =>
                    have hst : (pb.state == .retry) = true := by simpa [Next.goesOn, Pb.afterOutcome] using hgo
                    simp [Next.goesOn, hst]
          rw [unwind]
          split
          · rename_i hgo
            have hq' : (pb.afterOutcome keptAlive).queued = 0 := by
              have hzero := hq next hn (hmono hgo)
              cases keptAlive <;> exact hzero
            refine ⟨(h.afterOutcome keptAlive).running hn hgo hq', hrest, fun huser => ?_⟩
            have hcalm := (hu (List.mem_cons_of_mem _ huser)).afterOutcome keptAlive
            exact absurd hgo (by simp [hcalm.not_goesOn hn])
          · refine ih (h.afterOutcome keptAlive) hrest (fun huser => ?_) fun next hn hgo => ?_
            · exact (hu (List.mem_cons_of_mem _ huser)).afterOutcome keptAlive
            · have hzero := hq next hn (hmono hgo)
              cases keptAlive <;> exact hzero
      | retryThread =>
          rw [unwind]
          refine ih h.retryThreadEnds hrest (fun huser => ?_) fun next hn hgo => ?_
          · exact hu (List.mem_cons_of_mem _ huser)
          · refine hq next hn ?_
            cases next <;> exact hgo

/-- Returning changes neither the transaction nor the log nor the state. -/
lemma unwind_trans_log_state (pb : Pb) (stack : List Frame) : (unwind pb stack).1.trans = pb.trans ∧
    (unwind pb stack).1.log = pb.log ∧ (unwind pb stack).1.state = pb.state := by
  induction stack generalizing pb with
  | nil => exact ⟨rfl, rfl, rfl⟩
  | cons f rest ih =>
      cases f with
      | fsm | user => exact ⟨rfl, rfl, rfl⟩
      | rest keptAlive next =>
          have hafter : (pb.afterOutcome keptAlive).trans = pb.trans ∧
              (pb.afterOutcome keptAlive).log = pb.log ∧
                (pb.afterOutcome keptAlive).state = pb.state := by
            cases keptAlive <;> exact ⟨rfl, rfl, rfl⟩
          obtain ⟨ht, hl, hst⟩ := ih (pb.afterOutcome keptAlive)
          rw [unwind]
          split
          · exact hafter
          · exact ⟨ht.trans hafter.1, hl.trans hafter.2.1, hst.trans hafter.2.2⟩
      | retryThread =>
          rw [unwind]
          exact ih pb.retryThreadEnds

end Net

namespace Pb

variable {c : ℕ} {b pb : Pb} {a : Answer} {p : Pass}

lemma Running.counts (h : pb.Running c) : pb.Counts c := h.owes.elim (·.counts) (·.counts)

lemma Waiting.counts (h : pb.Waiting c) : pb.Counts c := by
  rcases h.owes with ⟨_, hc⟩ | ⟨_, ho⟩ | hs
  · exact hc
  · exact ho.counts
  · exact hs.counts

/-- After a pass that does not go on by itself. -/
lemma Running.waiting (h : pb.Running c) (hs : pb.state.startable = false) : pb.Waiting c := by
  refine ⟨h.toWired, by simp [h.queued], fun _ => h.queued, .inr ?_⟩
  exact h.owes.imp (fun ho => ⟨hs, ho⟩) id

lemma Queued.waiting (h : pb.Queued c) : pb.Waiting c := by
  refine ⟨h.toWired, by simp [h.queued], fun hq => ?_, .inr (.inl ⟨?_, h.opened⟩)⟩
  · rcases h.state with hst | hst <;> simp [hst, PbState.startable] at hq
  · rcases h.state with hst | hst <;> rw [hst] <;> rfl

lemma Settled.waiting (h : pb.Settled c) : pb.Waiting c :=
  ⟨h.toWired, by simp [h.queued], fun _ => h.queued, .inl ⟨h.state, h.counts⟩⟩

lemma Queued.calm (h : pb.Queued c) : pb.Calm := by
  refine ⟨h.direct, ?_⟩
  rcases h.state with hst | hst <;> rw [hst] <;> rfl

lemma Settled.calm (h : pb.Settled c) : pb.Calm := by
  have hs := h.state
  constructor
  · cases hr : pb.retryAfterClose with
    | false => rfl
    | true =>
        have hm := h.once hr
        revert hs hm
        cases pb.state <;> simp [PbState.startable, PbState.mayRetry]
  · revert hs
    cases pb.state <;> simp [PbState.startable, PbState.inCallback]

lemma counts_of_shaped {stack : List Frame} (h : Shaped c pb stack) : pb.Counts c := by
  cases stack with
  | nil => exact h.1.counts
  | cons f rest => cases f <;> exact h.1.counts

end Pb

namespace Net

open Pb

variable {c : ℕ} {pb : Pb} {a : Answer} {p : Pass}

/-- What follows a pass has the shape again, unless the thread hangs. -/
lemma shaped_endPass (s : Net) (h : Ends c pb a p) {stack : List Frame}
    (hs : ∀ f ∈ stack, f.resumable = true) (hu : .user ∈ stack → pb.state.startable = true) :
    (s.endPass p stack).pb.Counts c ∧
      ((s.endPass p stack).hung = false → Shaped c (s.endPass p stack).pb (s.endPass p stack).stack) := by
  have hframes (hn : p.next ≠ .again) :
      ∀ f ∈ Frame.rest p.keptAlive p.next :: stack, f.resumable = true := by
    rintro f hf
    rcases List.mem_cons.mp hf with rfl | hf
    · revert hn
      cases p.next <;> simp [Frame.resumable]
    · exact hs f hf
  have huser {t : List Frame} {k : Bool} {n : Next} (hf : .user ∈ Frame.rest k n :: t) : .user ∈ t := by
    simpa using hf
  cases h with
  | goesOn follows outcome start running again =>
      have hshape : Shaped c (s.endPass p stack).pb (s.endPass p stack).stack := by
        simp only [endPass, outcome, proceed]
        by_cases hn : p.next = .again
        · rw [unwind, hn, if_pos (show Next.again.goesOn _ = true from rfl)]
          refine ⟨running.afterOutcome _, hs, fun hf => ?_⟩
          exact absurd (hu hf) (by simp [start])
        · have hns : p.pb.state.startable = false := Bool.eq_false_iff.mpr fun ht => hn (again ht)
          refine shaped_unwind (running.waiting hns) (hframes hn) (fun hf => ?_) fun _ _ _ => running.queued
          exact absurd (hu (huser hf)) (by simp [start])
      exact ⟨counts_of_shaped hshape, fun _ => hshape⟩
  | enqueues follows outcome next queued =>
      have hshape : Shaped c (s.endPass p stack).pb (s.endPass p stack).stack := by
        simp only [endPass, outcome, proceed]
        refine shaped_unwind queued.waiting (hframes (by simp [next])) (fun _ => queued.calm) fun n hn hgo => ?_
        exact absurd hgo (by simp [queued.calm.not_goesOn hn])
      exact ⟨counts_of_shaped hshape, fun _ => hshape⟩
  | settles follows next settled told =>
      have hshape : Shaped c (s.endPass p stack).pb (s.endPass p stack).stack := by
        rcases told with ⟨outcome, _⟩ | ⟨outcome, _⟩
        · simp only [endPass, outcome]
          refine ⟨settled.waiting, fun f hf => ?_, fun _ => settled.calm⟩
          rcases List.mem_cons.mp hf with rfl | hf
          · rfl
          · exact hframes next f hf
        · simp only [endPass, outcome, proceed]
          exact shaped_unwind settled.waiting (hframes next) (fun _ => settled.calm)
            fun _ _ _ => settled.queued
      exact ⟨counts_of_shaped hshape, fun _ => hshape⟩
  | retries follows outcome next start running state =>
      have hshape : Shaped c (s.endPass p stack).pb (s.endPass p stack).stack := by
        simp only [endPass, outcome]
        refine ⟨running, hframes next, fun hf => ?_⟩
        exact absurd (hu (huser hf)) (by simp [start])
      exact ⟨counts_of_shaped hshape, fun _ => hshape⟩
  | hangs follows outcome counts =>
      simp only [endPass, outcome]
      exact ⟨counts, fun hh => absurd hh (by simp)⟩

end Net

/-! ## Stopping -/

namespace Pb

variable {c : ℕ} {pb : Pb}

lemma Waiting.requeue (h : pb.Waiting c) (room : Bool)
    (hs : pb.state.startable = false ∧ pb.state ≠ .waitRetry) : (pb.requeue room).Waiting c := by
  rw [Pb.requeue]
  split
  · refine ⟨⟨h.once, h.unwatched, h.socket, h.lost⟩, Nat.le_refl 1, fun hq => ?_, ?_⟩
    · rcases hq with hq | hq
      · exact absurd hq (by simp [hs.1])
      · exact absurd hq hs.2
    · exact h.owes.imp id (Or.imp id fun hs =>
        ⟨hs.counts, hs.trans, hs.cancelled, hs.state, hs.once, hs.timer⟩)
  · exact h

/-- A transaction that is being cancelled. -/
lemma Open.cancelling {state : PbState} (ho : pb.Open c) (hl : pb.pal.closed = true → pb.Unheard)
    (hq : pb.queued ≤ 1) (hr : pb.retryAfterClose = true → state.mayRetry = true)
    (hs : state = .waitCancel ∨ state = .waitCancelDns ∨ state = .waitCancelKeepalive) (room : Bool) :
    ({ pb with state }.requeue room).Waiting c := by
  have hstate : state.unwatched = false ∧ state.hasSocket = false ∧ state.startable = false ∧
      state ≠ .waitRetry := by
    rcases hs with rfl | rfl | rfl <;> exact ⟨rfl, rfl, rfl, nofun⟩
  obtain ⟨hu, hk, hstart, hretry⟩ := hstate
  have hwait : { pb with state }.Waiting c := by
    refine ⟨⟨hr, fun h => ?_, fun h => ?_, hl⟩, hq, fun h => ?_, .inr (.inl ⟨hstart, ho⟩)⟩
    · exact absurd h (by simp [hu])
    · exact absurd h (by simp [hk])
    · exact absurd h (by simp [hstart, hretry])
  exact hwait.requeue room ⟨hstart, hretry⟩

/-- `pbnc_stop` of a transaction that is under way. -/
lemma Waiting.stopOpen (h : pb.Waiting c) (ho : pb.Open c)
    (hst : pb.state ≠ .idle ∧ pb.state ≠ .keepAliveIdle) (rslt : PubnubRes) (room dns : Bool) :
    (pb.pbncStop rslt room dns).Waiting c := by
  have hstart : pb.state.startable = false := by
    obtain ⟨hi, hk⟩ := hst
    revert hi hk
    cases pb.state <;> simp [PbState.startable]
  have honce (hm : pb.state.mayRetry = false) {st : PbState} :
      pb.retryAfterClose = true → st.mayRetry = true :=
    fun ht => absurd (h.once ht) (by simp [hm])
  have hsame {rslt : PubnubRes} : { pb with lastResult := rslt }.Waiting c :=
    ⟨⟨h.once, h.unwatched, h.socket, h.lost⟩, h.queued, h.quiet, .inr (.inl ⟨hstart, ho⟩)⟩
  have hcancel {rslt : PubnubRes} {state : PbState}
      (hr : pb.retryAfterClose = true → state.mayRetry = true)
      (hs : state = .waitCancel ∨ state = .waitCancelDns ∨ state = .waitCancelKeepalive) :
      ({ pb with lastResult := rslt, state }.requeue room).Waiting c := by
    have hopen : { pb with lastResult := rslt }.Open c := ho
    exact hopen.cancelling h.lost h.queued hr hs room
  have hdefault {rslt : PubnubRes} : ({ pb with lastResult := rslt }.stopDefault room).Waiting c :=
    hcancel (fun _ => rfl) (.inl rfl)
  have hconnecting (hm : pb.state.mayRetry = false) :
      ({ pb with lastResult := rslt }.stopConnecting room dns).Waiting c := by
    rw [stopConnecting]
    split
    · split
      · exact hdefault
      · split
        · exact hcancel (honce hm) (.inr (.inl rfl))
        · exact hdefault
    · exact hdefault
  rw [pbncStop]
  dsimp only
  split
  · exact hsame
  · exact hsame
  · exact hsame
  · rename_i hs
    exact hconnecting (by rw [hs]; rfl)
  · rename_i hs
    exact hconnecting (by rw [hs]; rfl)
  · rename_i hs
    exact hconnecting (by rw [hs]; rfl)
  · rename_i hs
    exact absurd hs hst.1
  · rename_i hs
    exact absurd hs hst.2
  · rename_i hs
    rw [stopKeptAlive]
    split
    · exact hcancel (honce (by rw [hs]; rfl)) (.inr (.inr rfl))
    · exact hdefault
  · exact hdefault

lemma pbncStop_idle (hst : pb.state = .idle) (rslt : PubnubRes) (room dns : Bool) :
    pb.pbncStop rslt room dns = { pb with lastResult := rslt, trans := none } := by
  simp [pbncStop, hst]

lemma pbncStop_keepAliveIdle (hst : pb.state = .keepAliveIdle) (room dns : Bool) :
    pb.pbncStop .cancelled room dns =
      { pb with lastResult := .cancelled, trans := none, state := .waitCancel }.requeue room := by
  simp [pbncStop, hst, stopKeptAlive, stopDefault]

/-- A context is cancelled. -/
lemma Waiting.cancel (h : pb.Waiting c) (room dns : Bool) : (pb.pbncStop .cancelled room dns).Waiting c := by
  rcases h.owes with ⟨hs, hc⟩ | ⟨hs, ho⟩ | hs
  · have hu := h.unwatched (by revert hs; cases pb.state <;> simp [PbState.startable, PbState.unwatched])
    have honce : pb.retryAfterClose = false := by
      cases hr : pb.retryAfterClose with
      | false => rfl
      | true =>
          have hm := h.once hr
          revert hs hm
          cases pb.state <;> simp [PbState.startable, PbState.mayRetry]
    cases hst : pb.state with
    | idle =>
        rw [pbncStop_idle hst]
        exact ⟨⟨h.once, h.unwatched, h.socket, h.lost⟩, h.queued, h.quiet, .inl ⟨hs, hc⟩⟩
    | keepAliveIdle =>
        have hstray : { pb with lastResult := .cancelled, trans := none, state := .waitCancel }.Waiting c := by
          refine ⟨⟨fun _ => rfl, fun _ => hu, fun hk => ?_, h.lost⟩, h.queued, fun hq => ?_, .inr (.inr ?_)⟩
          · simp [PbState.hasSocket] at hk
          · simp [PbState.startable] at hq
          · exact ⟨hc, rfl, rfl, .inl rfl, honce, hu.2⟩
        rw [pbncStop_keepAliveIdle hst]
        exact hstray.requeue room ⟨rfl, by simp⟩
    | _ => simp [hst, PbState.startable] at hs
  · refine h.stopOpen ho ⟨?_, ?_⟩ .cancelled room dns <;> rintro hst <;> simp [hst, PbState.startable] at hs
  · have hsame : pb.pbncStop .cancelled room dns = { pb with lastResult := .cancelled } := by
      rw [pbncStop]
      rcases hs.state with hst | hst <;> simp [hst]
    rw [hsame]
    exact ⟨⟨h.once, h.unwatched, h.socket, h.lost⟩, h.queued, h.quiet,
      .inr (.inr ⟨hs.counts, hs.trans, rfl, hs.state, hs.once, hs.timer⟩)⟩

lemma Calm.requeue (h : pb.Calm) (room : Bool) : (pb.requeue room).Calm := by
  rw [Pb.requeue]
  split <;> exact h

lemma Calm.cancel (h : pb.Calm) (room dns : Bool) : (pb.pbncStop .cancelled room dns).Calm := by
  obtain ⟨ho, hs⟩ := h
  cases hst : pb.state with
  | idle =>
      rw [pbncStop_idle hst]
      exact ⟨ho, hs⟩
  | waitCancel =>
      rw [show pb.pbncStop .cancelled room dns = { pb with lastResult := .cancelled } by simp [pbncStop, hst]]
      exact ⟨ho, hs⟩
  | keepAliveIdle =>
      have hcalm : { pb with lastResult := .cancelled, trans := none, state := .waitCancel }.Calm := ⟨ho, rfl⟩
      rw [pbncStop_keepAliveIdle hst]
      exact hcalm.requeue room
  | ready | keepAliveReady =>
      have hcalm : { pb with lastResult := .cancelled, state := .waitCancel }.Calm := ⟨ho, rfl⟩
      have hstop : pb.pbncStop .cancelled room dns =
          { pb with lastResult := .cancelled, state := .waitCancel }.requeue room := by
        simp [pbncStop, hst, stopDefault]
      rw [hstop]
      exact hcalm.requeue room
  | _ => simp [hst, PbState.inCallback] at hs

/-- Bytes arrive: the socket has more of them. -/
lemma closed_arrive (pb : Pb) (bytes : Bytes) :
    ({ pb.pal with socket := pb.pal.socket.map (· ++ bytes) } : Pal).closed = pb.pal.closed := by
  simp [Pal.closed]

lemma Wired.arrive (h : pb.Wired) (bytes : Bytes) :
    { pb with pal := { pb.pal with socket := pb.pal.socket.map (· ++ bytes) } }.Wired :=
  ⟨h.once, h.unwatched, fun hs => (closed_arrive pb bytes).trans (h.socket hs),
    fun hc => h.lost ((closed_arrive pb bytes).symm.trans hc)⟩

lemma Stray.arrive (h : pb.Stray c) (bytes : Bytes) :
    { pb with pal := { pb.pal with socket := pb.pal.socket.map (· ++ bytes) } }.Stray c :=
  ⟨h.counts, h.trans, h.cancelled, h.state, h.once, h.timer⟩

end Pb

namespace Net

open Pb

variable {s s' : Net} {l : NetStep}

/-- What the answers of a step may be. -/
def outcomesOnce (s : Net) : NetStep → Bool
  | .fsm a => s.pb.outcomesOnce a
  | _ => true

/-- The invariant of the runs. -/
structure Sound (s : Net) : Prop where
  counts : s.pb.Counts s.count
  shaped : s.hung = false → Shaped s.count s.pb s.stack

lemma Sound.of_shaped (h : Shaped s.count s.pb s.stack) : s.Sound := ⟨counts_of_shaped h, fun _ => h⟩

/-- The user can call a function of the API. -/
lemma Sound.waiting (h : s.Sound) (hu : s.userCalls = true) :
    s.hung = false ∧ s.pb.Waiting s.count ∧ (∀ f ∈ s.stack, f.resumable = true) ∧
      (.user ∈ s.stack → s.pb.Calm) := by
  simp only [userCalls, Bool.and_eq_true, Bool.not_eq_true', Bool.or_eq_true] at hu
  have hsh := h.shaped hu.1
  refine ⟨hu.1, ?_⟩
  cases hst : s.stack with
  | nil =>
      rw [hst] at hsh
      exact hsh
  | cons f rest =>
      rw [hst] at hsh hu
      cases f with
      | user => exact hsh
      | fsm | rest | retryThread => simp at hu

/-- None of the functions is at work. -/
lemma Sound.atRest (h : s.Sound) (hr : s.atRest = true) :
    s.hung = false ∧ s.stack = [] ∧ s.pb.Waiting s.count := by
  simp only [Net.atRest, Bool.and_eq_true, Bool.not_eq_true'] at hr
  have hst : s.stack = [] := eq_of_beq hr.2
  have hsh := h.shaped hr.1
  rw [hst] at hsh
  exact ⟨hr.1, hst, hsh.1⟩

/-- A transaction is started. -/
lemma sound_start (h : s.Sound) (hu : s.userCalls = true) (hc : s.pb.canStart = true) (r : Request) :
    (s.start r).Sound := by
  obtain ⟨_, hw, hres, _⟩ := h.waiting hu
  have hstart : s.pb.state.startable = true := by
    rcases Bool.or_eq_true_iff.mp hc with hst | hst <;> rw [eq_of_beq hst] <;> rfl
  obtain ⟨p, hp, hn⟩ := hw.counts
  refine .of_shaped ⟨⟨⟨hw.once, hw.unwatched, hw.socket, hw.lost⟩, hw.quiet (.inl hstart), .inl ?_⟩, hres,
    fun _ => hstart⟩
  refine ⟨s.count, rfl, rfl, ?_⟩
  show (phase WireEvent.mark s.pb.log).bind _ = _
  rw [hp]
  cases p with
  | free n =>
      obtain rfl : n = s.count := hn
      simp [WireEvent.mark, Phase.advance]
  | busy n =>
      obtain hn : n + 1 = s.count := hn
      simp [WireEvent.mark, Phase.advance, hn]

/-- **One step.** -/
lemma sound_step (h : s.Sound) (hg : s.outcomesOnce l = true) (hs : s.step l = some s') : s'.Sound := by
  cases l with
  | start r =>
      simp only [step, Option.ite_none_right_eq_some, Option.some.injEq, Bool.and_eq_true] at hs
      obtain ⟨⟨⟨hu, hcan⟩, _⟩, rfl⟩ := hs
      exact sound_start h hu hcan r
  | cancel room =>
      simp only [step, Option.ite_none_right_eq_some, Option.some.injEq] at hs
      obtain ⟨hu, rfl⟩ := hs
      obtain ⟨_, hw, hres, hcalm⟩ := h.waiting hu
      exact .of_shaped (shaped_of_waiting (hw.cancel room false) hres fun huser => (hcalm huser).cancel room false)
  | callbackReturns =>
      rw [step] at hs
      split at hs
      · rename_i rest hh hst
        obtain rfl := Option.some.inj hs
        have hsh := h.shaped hh
        rw [hst] at hsh
        obtain ⟨hw, hres, hcalm⟩ := hsh
        have hc : s.pb.Calm := hcalm List.mem_cons_self
        refine .of_shaped (shaped_unwind hw (fun f hf => hres f (List.mem_cons_of_mem _ hf)) (fun _ => hc) ?_)
        rintro next hn hgo
        exact absurd hgo (by simp [hc.not_goesOn hn])
      · cases hs
  | fsm a =>
      rw [step] at hs
      split at hs
      · rename_i rest hh hst
        obtain ⟨p, hp, rfl⟩ := Option.map_eq_some_iff.mp hs
        have hsh := h.shaped hh
        rw [hst] at hsh
        obtain ⟨hrun, hres, huser⟩ := hsh
        have hcount : (s.endPass p rest).count = s.count := by
          rw [endPass]
          split <;> rfl
        obtain ⟨hc, hshape⟩ := shaped_endPass s (hrun.pass hg p hp) hres huser
        exact ⟨hcount ▸ hc, fun hn => hcount ▸ hshape hn⟩
      · cases hs
  | processQueue =>
      simp only [step, Option.ite_none_right_eq_some, Option.some.injEq, Bool.and_eq_true,
        decide_eq_true_eq] at hs
      obtain ⟨⟨hrest, hpos⟩, rfl⟩ := hs
      obtain ⟨_, hst, hw⟩ := h.atRest hrest
      have hle := hw.queued
      refine .of_shaped ⟨⟨⟨hw.once, hw.unwatched, hw.socket, hw.lost⟩, ?_, ?_⟩, by simp, by simp⟩
      · show s.pb.queued - 1 = 0
        omega
      · rcases hw.owes with ⟨hstart, _⟩ | ⟨_, ho⟩ | hstray
        · have hzero := hw.quiet (.inl hstart)
          omega
        · exact .inl ho
        · exact .inr ⟨hstray.counts, hstray.trans, hstray.cancelled, hstray.state, hstray.once, hstray.timer⟩
  | pollEvent room =>
      simp only [step, Option.ite_none_right_eq_some, Option.some.injEq, Bool.and_eq_true] at hs
      obtain ⟨⟨hrest, hwatched⟩, rfl⟩ := hs
      obtain ⟨_, hst, hw⟩ := h.atRest hrest
      have hun : s.pb.state.unwatched = false :=
        Bool.eq_false_iff.mpr fun hu => absurd hwatched (by simp [(hw.unwatched hu).1])
      refine .of_shaped (shaped_of_waiting (hw.requeue room ?_) (by simp [hst]) (by simp [hst]))
      revert hun
      cases s.pb.state <;> simp [PbState.unwatched, PbState.startable]
  | timeout room dns =>
      simp only [step, Option.ite_none_right_eq_some, Option.some.injEq, Bool.and_eq_true] at hs
      obtain ⟨⟨hrest, htimer⟩, rfl⟩ := hs
      obtain ⟨_, hst, hw⟩ := h.atRest hrest
      have hun : s.pb.state.unwatched = false :=
        Bool.eq_false_iff.mpr fun hu => absurd htimer (by simp [(hw.unwatched hu).2])
      have hopen : s.pb.state.startable = false ∧ s.pb.Open s.count := by
        rcases hw.owes with ⟨hstart, _⟩ | ho | hstray
        · revert hun hstart
          cases s.pb.state <;> simp [PbState.unwatched, PbState.startable]
        · exact ho
        · exact absurd htimer (by simp [hstray.timer])
      have hexpired : { s.pb with timer := false }.Waiting s.count :=
        ⟨⟨hw.once, fun hu => ⟨(hw.unwatched hu).1, rfl⟩, hw.socket, fun hc => ⟨(hw.lost hc).1, rfl⟩⟩, hw.queued,
          hw.quiet, .inr (.inl hopen)⟩
      refine .of_shaped (shaped_of_waiting (hexpired.stopOpen hopen.2 ?_ .timeout room dns) (by simp [hst])
        (by simp [hst]))
      have hs := hopen.1
      constructor <;> rintro hidle <;> simp [show s.pb.state = _ from hidle, PbState.startable] at hs
  | retryExpired =>
      simp only [step, Option.ite_none_right_eq_some, Option.some.injEq, Bool.and_eq_true] at hs
      obtain ⟨⟨hrest, _⟩, rfl⟩ := hs
      obtain ⟨_, hst, hw⟩ := h.atRest hrest
      rw [Net.retryExpired]
      split
      · rename_i hstate
        have hu := hw.unwatched (by rw [hstate]; rfl)
        refine .of_shaped ⟨⟨⟨fun _ => rfl, fun _ => hu, by simp [PbState.hasSocket], hw.lost⟩, hw.quiet (.inr hstate), .inl ?_⟩, ?_, ?_⟩
        · rcases hw.owes with ⟨hstart, _⟩ | ⟨_, ho⟩ | hstray
          · simp [hstate, PbState.startable] at hstart
          · exact ho
          · exact absurd (hstate ▸ hstray.state) (by simp)
        · simp [Frame.resumable]
        · simp
      · refine .of_shaped (shaped_of_waiting ⟨⟨hw.once, hw.unwatched, hw.socket, hw.lost⟩, hw.queued, hw.quiet, ?_⟩
          (by simp [hst]) (by simp [hst]))
        exact hw.owes.imp id (Or.imp id fun hs =>
          ⟨hs.counts, hs.trans, hs.cancelled, hs.state, hs.once, hs.timer⟩)
  | arrive bytes =>
      obtain rfl := Option.some.inj hs
      refine ⟨h.counts, fun hh => ?_⟩
      have hsh := h.shaped hh
      have hwait (hw : s.pb.Waiting s.count) : (s.arrive bytes).pb.Waiting s.count :=
        ⟨hw.toWired.arrive bytes, hw.queued, hw.quiet,
          hw.owes.imp id (Or.imp id fun hs => hs.arrive bytes)⟩
      show Shaped s.count (s.arrive bytes).pb s.stack
      revert hsh
      cases s.stack with
      | nil => exact fun hsh => ⟨hwait hsh.1, hsh.2⟩
      | cons f rest =>
          cases f with
          | fsm =>
              rintro ⟨hrun, hres⟩
              refine ⟨⟨hrun.toWired.arrive bytes, hrun.queued, ?_⟩, hres⟩
              exact hrun.owes.imp id fun hs => hs.arrive bytes
          | user | rest | retryThread => exact fun hsh => ⟨hwait hsh.1, hsh.2⟩

lemma sound_init (o : PubnubOptions) : (netMachine o).init.Sound := by
  refine .of_shaped ⟨⟨⟨nofun, fun _ => ⟨rfl, rfl⟩, nofun, fun _ => ⟨rfl, rfl⟩⟩, Nat.zero_le 1, fun _ => rfl, .inl ?_⟩,
    nofun, nofun⟩
  exact ⟨rfl, .free 0, rfl, rfl⟩

lemma sound_of_reachable {o : PubnubOptions}
    (hr : (netMachine o).Reachable (fun s l => s.outcomesOnce l = true) s) : s.Sound :=
  hr.invariant (sound_init o) fun _ _ _ => sound_step

lemma Sound.countP_reports_le_one (h : s.Sound) (n : ℕ) :
    s.pb.log.countP (WireEvent.reports n) ≤ 1 := by
  obtain ⟨p, hp, _⟩ := h.counts
  rw [← WireEvent.closes_mark]
  exact countP_closes_le_one hp n

/-- Everything succeeds, and whatever can wait in the queue does. -/
def queueing : Answer := { willing with enqueue := .later }

/-- The second transaction is started from the callback of the first and uses its connection. -/
def twoTransactionsRun : List NetStep :=
  let response := ascii "HTTP/1.1 200 OK\r\nContent-Length: 2\r\n\r\n[]"
  [.start timeRequest, .fsm queueing, .processQueue] ++ List.replicate 7 (.fsm queueing) ++
    [.arrive response] ++ List.replicate 8 (.fsm queueing) ++
    [.start timeRequest, .fsm queueing, .callbackReturns, .processQueue] ++
    List.replicate 6 (.fsm queueing) ++ [.arrive response] ++ List.replicate 8 (.fsm queueing) ++
    [.callbackReturns]

/-- Where the URL cannot be sent, the same transaction is started again after its report, and
    reported again. -/
example : ((netMachine {}).replay (fun _ _ => true) (netMachine {}).init
    (.start timeRequest :: (List.replicate 2 [.fsm queueing, .processQueue, .fsm queueing, .fsm queueing,
      .fsm { queueing with send := .error .other }, .callbackReturns]).flatten)).any
        (fun s => s.pb.log.countP (WireEvent.reports 0) == 2) = true := by decide +kernel

/-! ## No transaction is left without a report -/

/-- No retry is granted while the retry timer is running. -/
def outcomesTold (s : Net) (l : NetStep) : Bool :=
  s.outcomesOnce l && match l with
    | .fsm a => !s.pb.retryTimer.running || a.retryDelay == 0
    | _ => true

/-- Whatever has been started has been reported, or is under way. -/
def Told (s : Net) : Prop :=
  ∀ n < s.count, (∃ rslt, .reported (some n) rslt ∈ s.pb.log) ∨
    s.pb.trans = some n ∧
      (s.hung = true ∨ s.stack.head? = some .fsm ∨ s.pb.state.startable = false)

/-- Where the user starts a transaction, none is under way. -/
lemma Told.reported {n : ℕ} (h : s.Told) (hu : s.userCalls = true) (hs : s.pb.state.startable = true)
    (hn : n < s.count) : ∃ rslt, .reported (some n) rslt ∈ s.pb.log := by
  simp only [userCalls, Bool.and_eq_true, Bool.not_eq_true', Bool.or_eq_true] at hu
  refine (h n hn).resolve_right ?_
  rintro ⟨_, hh | hst | hb⟩
  · exact absurd hh (by simp [hu.1])
  · rcases hu.2 with hnil | huser
    · simp [eq_of_beq hnil] at hst
    · exact absurd ((eq_of_beq huser).symm.trans hst) (by simp)
  · exact absurd hs (by simp [hb])

/-- The context is the same as far as this goes. -/
lemma Told.congr (h : s.Told) (hc : s'.count = s.count) (ht : s'.pb.trans = s.pb.trans)
    (hl : s'.pb.log = s.pb.log)
    (hst : s.hung = true ∨ s.stack.head? = some .fsm ∨ s.pb.state.startable = false →
      s'.hung = true ∨ s'.stack.head? = some .fsm ∨ s'.pb.state.startable = false) : s'.Told := by
  rintro n hn
  rw [hl, ht]
  exact (h n (hc ▸ hn)).imp id (And.imp id hst)

/-- After a pass. -/
lemma told_endPass {a : Answer} {p : Pass} {rest : List Frame} {c : ℕ} (h : s.Told)
    (he : Ends c s.pb a p) (hg : s.pb.retryTimer.running = true → a.retryDelay = 0) :
    (s.endPass p rest).Told := by
  have hf : Pb.Follows s.pb p.pb := by
    cases he <;> assumption
  have hcount : (s.endPass p rest).count = s.count := by
    rw [endPass]
    split <;> rfl
  have hkeep : (s.endPass p rest).pb.trans = p.pb.trans ∧ (s.endPass p rest).pb.log = p.pb.log ∧
      (s.endPass p rest).pb.state = p.pb.state := by
    rw [endPass]
    split
    · exact unwind_trans_log_state p.pb _
    · exact ⟨rfl, rfl, rfl⟩
    · exact ⟨rfl, rfl, rfl⟩
    · exact ⟨rfl, rfl, rfl⟩
  obtain ⟨ht, hl, hst⟩ := hkeep
  rintro n hn
  rw [ht, hl, hst, hf.trans]
  rcases h n (hcount ▸ hn) with ⟨rslt, hrep⟩ | ⟨htrans, _⟩
  · exact .inl ⟨rslt, hf.log.subset hrep⟩
  cases he with
  | goesOn follows outcome start running again =>
      refine .inr ⟨htrans, .inr ?_⟩
      cases hs : p.pb.state.startable with
      | false => exact .inr rfl
      | true =>
          left
          simp only [endPass, outcome, proceed]
          rw [unwind, again hs, if_pos (show Next.again.goesOn _ = true from rfl)]
          rfl
  | enqueues follows outcome next queued =>
      refine .inr ⟨htrans, .inr (.inr ?_)⟩
      rcases queued.state with hq | hq <;> rw [hq] <;> rfl
  | settles follows next settled told =>
      rcases told with ⟨_, htold⟩ | ⟨_, hrun, hdelay⟩
      · exact .inl (htold n (hf.trans.trans htrans))
      · exact absurd hdelay (by simp [hg hrun])
  | retries follows outcome next start running state =>
      refine .inr ⟨htrans, .inr (.inr ?_)⟩
      rw [state]
      rfl
  | hangs follows outcome counts =>
      refine .inr ⟨htrans, .inl ?_⟩
      simp [endPass, outcome]

/-- Stopping a transaction that is under way keeps it under way. -/
lemma startable_pbncStop (pb : Pb) (rslt : PubnubRes) (room dns : Bool)
    (hs : pb.state.startable = false) :
    (pb.pbncStop rslt room dns).trans = pb.trans ∧ (pb.pbncStop rslt room dns).log = pb.log ∧
      (pb.pbncStop rslt room dns).state.startable = false := by
  have hrequeue (pb : Pb) : (pb.requeue room).trans = pb.trans ∧ (pb.requeue room).log = pb.log ∧
      (pb.requeue room).state = pb.state := by
    rw [Pb.requeue]
    split <;> exact ⟨rfl, rfl, rfl⟩
  have hset {pb' : Pb} {st : PbState} (ht : pb'.trans = pb.trans) (hl : pb'.log = pb.log)
      (hst : st.startable = false) :
      ({ pb' with state := st }.requeue room).trans = pb.trans ∧
        ({ pb' with state := st }.requeue room).log = pb.log ∧
          ({ pb' with state := st }.requeue room).state.startable = false := by
    obtain ⟨hrt, hrl, hrs⟩ := hrequeue { pb' with state := st }
    exact ⟨hrt.trans ht, hrl.trans hl, hrs ▸ hst⟩
  have hconnecting : ({ pb with lastResult := rslt }.stopConnecting room dns).trans = pb.trans ∧
      ({ pb with lastResult := rslt }.stopConnecting room dns).log = pb.log ∧
        ({ pb with lastResult := rslt }.stopConnecting room dns).state.startable = false := by
    rw [stopConnecting]
    split
    · split
      · exact hset rfl rfl rfl
      · split <;> exact hset rfl rfl rfl
    · exact hset rfl rfl rfl
  rw [Pb.pbncStop]
  dsimp only
  split
  · exact ⟨rfl, rfl, hs⟩
  · exact ⟨rfl, rfl, hs⟩
  · exact ⟨rfl, rfl, hs⟩
  · exact hconnecting
  · exact hconnecting
  · exact hconnecting
  · rename_i hst
    simp [hst, PbState.startable] at hs
  · rename_i hst
    simp [hst, PbState.startable] at hs
  · rw [stopKeptAlive]
    split <;> exact hset rfl rfl rfl
  · exact hset rfl rfl rfl

lemma log_pbncStop (pb : Pb) (rslt : PubnubRes) (room dns : Bool) :
    (pb.pbncStop rslt room dns).log = pb.log := by
  cases hs : pb.state.startable with
  | false => exact (startable_pbncStop pb rslt room dns hs).2.1
  | true =>
      cases hst : pb.state with
      | idle => rw [pbncStop_idle hst]
      | keepAliveIdle =>
          simp only [Pb.pbncStop, hst, stopKeptAlive, stopDefault, Pb.requeue]
          repeat' split
          all_goals rfl
      | _ => simp [hst, PbState.startable] at hs

/-- **One step** leaves no transaction without a report. -/
lemma told_step (hsound : s.Sound) (h : s.Told) (hg : s.outcomesTold l = true)
    (hs : s.step l = some s') : s'.Told := by
  obtain ⟨honce, hrunning⟩ := Bool.and_eq_true_iff.mp hg
  have hstop {pb : Pb} (hl : pb.log = s.pb.log) (ht : pb.trans = s.pb.trans) (hst : pb.state = s.pb.state)
      (hu : s.userCalls = true) (rslt : PubnubRes) (room dns : Bool) :
      ({ s with pb := pb.pbncStop rslt room dns } : Net).Told := by
    cases hstart : pb.state.startable with
    | true =>
        rintro n hn
        rw [log_pbncStop, hl]
        exact .inl (h.reported hu (hst ▸ hstart) hn)
    | false =>
        obtain ⟨ht', hl', hs'⟩ := startable_pbncStop pb rslt room dns hstart
        exact h.congr rfl (ht'.trans ht) (hl'.trans hl) fun _ => .inr (.inr hs')
  have hcalls (hr : s.atRest = true) : s.userCalls = true := by
    simp only [atRest, Bool.and_eq_true] at hr
    simp [userCalls, hr.1, hr.2]
  cases l with
  | start r =>
      simp only [step, Option.ite_none_right_eq_some, Option.some.injEq, Bool.and_eq_true] at hs
      obtain ⟨⟨⟨hu, hcan⟩, _⟩, rfl⟩ := hs
      have hstart : s.pb.state.startable = true := by
        rcases Bool.or_eq_true_iff.mp hcan with hst | hst <;> rw [eq_of_beq hst] <;> rfl
      rintro n hn
      rcases Nat.lt_succ_iff_lt_or_eq.mp hn with hlt | rfl
      · obtain ⟨rslt, hrep⟩ := h.reported hu hstart hlt
        exact .inl ⟨rslt, List.mem_cons_of_mem _ hrep⟩
      · exact .inr ⟨rfl, .inr (.inl rfl)⟩
  | cancel room =>
      simp only [step, Option.ite_none_right_eq_some, Option.some.injEq] at hs
      obtain ⟨hu, rfl⟩ := hs
      exact hstop rfl rfl rfl hu .cancelled room false
  | callbackReturns =>
      rw [step] at hs
      split at hs
      · rename_i rest hh hst
        obtain rfl := Option.some.inj hs
        obtain ⟨ht, hl, hst'⟩ := unwind_trans_log_state s.pb rest
        refine h.congr rfl ht hl fun hb => ?_
        rcases hb with hb | hb | hb
        · exact absurd hb (by simp [hh])
        · exact absurd hb (by simp [hst])
        · exact .inr (.inr (hst' ▸ hb))
      · cases hs
  | fsm a =>
      rw [step] at hs
      split at hs
      · rename_i rest hh hst
        obtain ⟨p, hp, rfl⟩ := Option.map_eq_some_iff.mp hs
        have hsh := hsound.shaped hh
        rw [hst] at hsh
        refine told_endPass h (hsh.1.pass honce p hp) fun hrun => ?_
        simpa [hrun] using hrunning
      · cases hs
  | processQueue =>
      simp only [step, Option.ite_none_right_eq_some, Option.some.injEq] at hs
      obtain ⟨_, rfl⟩ := hs
      exact h.congr rfl rfl rfl fun _ => .inr (.inl rfl)
  | pollEvent room =>
      simp only [step, Option.ite_none_right_eq_some, Option.some.injEq] at hs
      obtain ⟨_, rfl⟩ := hs
      have hkeep : (s.pb.requeue room).trans = s.pb.trans ∧ (s.pb.requeue room).log = s.pb.log ∧
          (s.pb.requeue room).state = s.pb.state := by
        rw [Pb.requeue]
        split <;> exact ⟨rfl, rfl, rfl⟩
      exact h.congr rfl hkeep.1 hkeep.2.1 fun hb => by rwa [hkeep.2.2]
  | timeout room dns =>
      simp only [step, Option.ite_none_right_eq_some, Option.some.injEq, Bool.and_eq_true] at hs
      obtain ⟨⟨hrest, _⟩, rfl⟩ := hs
      refine hstop ?_ ?_ ?_ (hcalls hrest) .timeout room dns
      · rfl
      · rfl
      · rfl
  | retryExpired =>
      simp only [step, Option.ite_none_right_eq_some, Option.some.injEq] at hs
      obtain ⟨_, rfl⟩ := hs
      rw [Net.retryExpired]
      split
      · exact h.congr rfl rfl rfl fun _ => .inr (.inl rfl)
      · exact h.congr rfl rfl rfl fun hb => hb
  | arrive bytes =>
      obtain rfl := Option.some.inj hs
      exact h.congr rfl rfl rfl fun hb => hb

end Net

end PubNub
