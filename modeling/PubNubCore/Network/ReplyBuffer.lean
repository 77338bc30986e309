import PubNubCore.Network.Runs

/-!
# Writing the reply inside its buffer

What the state machine copies to `core.http_reply` stays inside the buffer which it has asked
for, as long as the lengths the server sends do not make the request for that buffer wrap around.
A `Content-Length` of -1 (or whatever `atoi` takes for it) asks for no byte at all, and the chunks
whose total reaches 2^32 ask for the remainder only, because the argument of
`pbcc_realloc_reply_buffer` is an `unsigned`.

The invariant is `Pb.ReplySound`: in each state that reads the response there is room for what
is still to be copied there.
-/

namespace PubNub

/-! ## What leaves the reply alone -/

/-- The states in which the lengths of the response matter. -/
def PbState.receiving : PbState → Bool
  | .rxHeaders | .rxHeaderLine | .rxBody | .rxBodyWait | .rxChunkLen | .rxChunkLenLine
  | .rxBodyChunk | .rxBodyChunkWait => true
  | _ => false

namespace Pb

/-- The reply buffer is the same, and the response is not read any longer. -/
structure Leaves (pb pb' : Pb) : Prop where
  httpReply : pb'.httpReply = pb.httpReply
  capacity : pb'.capacity = pb.capacity
  copies : pb'.copies = pb.copies
  receiving : pb'.state.receiving = false

variable {pb pb' : Pb} {a : Answer}

/-- Fields that have nothing to do with the reply may change before. -/
lemma Leaves.after (h : Leaves pb pb') {pb₀ : Pb} (hr : pb.httpReply = pb₀.httpReply)
    (hc : pb.capacity = pb₀.capacity) (hl : pb.copies = pb₀.copies) :
    Leaves pb₀ pb' :=
  ⟨h.httpReply.trans hr, h.capacity.trans hc, h.copies.trans hl, h.receiving⟩

lemma leaves_transOutcome (pb : Pb) (a : Answer) (state : PbState) (next : Next)
    (hs : state.receiving = false) : Leaves pb (pb.transOutcome a state next).pb := by
  simp only [transOutcome, pbntfTransOutcome]
  split
  · rw [requestRetryTimerStart]
    split
    · exact ⟨rfl, rfl, rfl, hs⟩
    · exact ⟨rfl, rfl, rfl, hs⟩
    all_goals
      dsimp only
      split <;> exact ⟨rfl, rfl, rfl, rfl⟩
  · rw [reportOutcome]
    split <;> exact ⟨rfl, rfl, rfl, hs⟩

lemma leaves_pbpalClose (pb : Pb) : pb.pbpalClose.httpReply = pb.httpReply ∧
    pb.pbpalClose.capacity = pb.capacity ∧ pb.pbpalClose.copies = pb.copies := by
  rw [pbpalClose]
  dsimp only
  split <;> exact ⟨rfl, rfl, rfl⟩

lemma leaves_closeConnection (pb : Pb) (a : Answer) (next : Next) :
    Leaves pb (pb.closeConnection a next).pb := by
  obtain ⟨hr, hc, hl⟩ := leaves_pbpalClose pb
  rw [closeConnection]
  split
  · exact ⟨hr, hc, hl, rfl⟩
  · split
    · exact ⟨hr, hc, hl, rfl⟩
    · exact (leaves_transOutcome pb.pbpalClose a .idle next rfl).after hr hc hl

lemma leaves_closeKeptAliveConnection (pb : Pb) (a : Answer) :
    Leaves pb (pb.closeKeptAliveConnection a) := by
  obtain ⟨hr, hc, hl⟩ := leaves_pbpalClose { pb with startedWhileKeptAlive := false }
  rw [closeKeptAliveConnection]
  split
  · exact ⟨hr, hc, hl, rfl⟩
  · split <;> exact ⟨hr, hc, hl, rfl⟩

lemma leaves_outcomeDetected (pb : Pb) (a : Answer) (rslt : PubnubRes) (next : Next) :
    Leaves pb (pb.outcomeDetected a rslt next).pb := by
  rw [outcomeDetected]
  dsimp only
  split
  · exact (leaves_transOutcome _ a .keepAliveIdle next rfl).after rfl rfl rfl
  · exact (leaves_closeConnection _ a next).after rfl rfl rfl

/-! ## The passes that do not receive -/

/-- Every end of the pass leaves the reply alone. -/
def AllLeave (pb : Pb) (x : Option Pass) : Prop := ∀ p, x = some p → Leaves pb p.pb

lemma AllLeave.some {p : Pass} (h : Leaves pb p.pb) : AllLeave pb (some p) := by
  rintro q hq
  exact Option.some.inj hq ▸ h

lemma AllLeave.map {β : Type} {x : Option β} {f : β → Pass}
    (h : ∀ r, x = Option.some r → Leaves pb (f r).pb) : AllLeave pb (x.map f) := by
  rintro p hp
  obtain ⟨r, hr, rfl⟩ := Option.map_eq_some_iff.mp hp
  exact h r hr

lemma AllLeave.after {x : Option Pass} (h : AllLeave pb x) {pb₀ : Pb}
    (hr : pb.httpReply = pb₀.httpReply) (hc : pb.capacity = pb₀.capacity)
    (hl : pb.copies = pb₀.copies) : AllLeave pb₀ x :=
  fun p hp => (h p hp).after hr hc hl

/-- Sending changes only the platform layer and the log. -/
lemma leaves_pbpalSend {piece : Piece} {data : Bytes} {r : Pb × SendResult}
    (h : pb.pbpalSend a piece data = some r) : r.1.httpReply = pb.httpReply ∧
      r.1.capacity = pb.capacity ∧ r.1.copies = pb.copies ∧ r.1.state = pb.state := by
  obtain ⟨q, _, rfl⟩ := Option.map_eq_some_iff.mp h
  dsimp only
  split <;> exact ⟨rfl, rfl, rfl, rfl⟩

lemma leaves_sendAndGo (pb : Pb) (a : Answer) (piece : Piece) (data : Bytes) (state : PbState)
    (hs : state.receiving = false) : AllLeave pb (pb.sendAndGo a piece data state) := by
  refine AllLeave.map fun r hr => ?_
  obtain ⟨hr, hc, hl, _⟩ := leaves_pbpalSend hr
  split
  · exact (leaves_outcomeDetected r.1 a .ioError .brk).after hr hc hl
  · exact ⟨hr, hc, hl, hs⟩

lemma leaves_afterStatus {done failed : Pb → Option Pass} (hs : pb.state.receiving = false)
    (hd : ∀ pal, AllLeave pb (done (pb.withPal pal)))
    (hf : ∀ pal, AllLeave pb (failed (pb.withPal pal))) :
    AllLeave pb (pb.afterStatus a done failed) := by
  rintro p hp
  obtain ⟨r, _, hr⟩ := Option.bind_eq_some_iff.mp hp
  dsimp only at hr
  split at hr
  · exact Option.some.inj hr ▸ ⟨rfl, rfl, rfl, hs⟩
  · exact hd r.1 p hr
  · exact hf r.1 p hr

lemma leaves_sendFailed (pb : Pb) (a : Answer) : AllLeave pb (pb.sendFailed a) :=
  .some (leaves_outcomeDetected pb a .ioError .brk)

lemma leaves_txGetSend (pb : Pb) (a : Answer) (piece : Piece) (data : Bytes)
    (hs : pb.state.receiving = false) : AllLeave pb (pb.txGetSend a piece data) := by
  refine AllLeave.map fun r hr => ?_
  obtain ⟨hr, hc, hl, hst⟩ := leaves_pbpalSend hr
  split
  · exact (leaves_outcomeDetected r.1 a .ioError .again).after hr hc hl
  · exact ⟨hr, hc, hl, hst ▸ hs⟩

lemma leaves_pbsTxGet (hs : pb.state.receiving = false) : AllLeave pb (pb.pbsTxGet a) := by
  rw [pbsTxGet]
  have hfailed : ∀ pal, AllLeave pb (some ((pb.withPal pal).txGetFailed a)) :=
    fun pal => .some ((leaves_outcomeDetected _ a .ioError .again).after rfl rfl rfl)
  split
  · refine leaves_afterStatus hs (fun pal => ?_) hfailed
    dsimp only
    split
    · rintro p hp
      cases hp
    · split <;> exact (leaves_txGetSend _ a .scheme _ rfl).after rfl rfl rfl
  · refine leaves_afterStatus hs (fun pal => ?_) hfailed
    dsimp only
    repeat' split
    all_goals first | exact .some ⟨rfl, rfl, rfl, rfl⟩ | (rintro p hp; cases hp)
  · exact leaves_afterStatus hs (fun pal => (leaves_txGetSend _ a _ _ rfl).after rfl rfl rfl) hfailed

lemma leaves_pbsConnected : AllLeave pb (pb.pbsConnected a) := by
  rw [pbsConnected]
  dsimp only
  split
  · exact (leaves_sendAndGo _ a .connect _ .txGet rfl).after rfl rfl rfl
  · split
    · split
      · exact (leaves_sendAndGo _ a _ _ .txGet rfl).after rfl rfl rfl
      · exact .some ⟨rfl, rfl, rfl, rfl⟩
      · refine .some ?_
        rw [tlsFailed]
        split <;> exact (leaves_outcomeDetected _ a .connectFailed .ret).after rfl rfl rfl
      · exact .some ((leaves_outcomeDetected _ a .internalError .ret).after rfl rfl rfl)
    · exact (leaves_sendAndGo _ a _ _ .txGet rfl).after rfl rfl rfl

lemma leaves_pbsWaitTlsConnect (hs : pb.state.receiving = false) :
    AllLeave pb (pb.pbsWaitTlsConnect a) := by
  rw [pbsWaitTlsConnect]
  split
  · exact leaves_sendAndGo _ a _ _ .txGet rfl
  · exact .some ⟨rfl, rfl, rfl, hs⟩
  · refine .some ?_
    rw [tlsFailed]
    split <;> exact (leaves_outcomeDetected _ a .connectFailed .brk).after rfl rfl rfl
  · exact .some (leaves_outcomeDetected _ a .internalError .brk)

lemma leaves_awaitResponse (pb : Pb) : AllLeave pb pb.awaitResponse :=
  AllLeave.map fun _ _ => ⟨rfl, rfl, rfl, rfl⟩

lemma leaves_sendFinHead (pb : Pb) (a : Answer) : AllLeave pb (pb.sendFinHead a) :=
  leaves_sendAndGo pb a _ _ .txFinHead rfl

lemma leaves_pbsTxScheme (hs : pb.state.receiving = false) : AllLeave pb (pb.pbsTxScheme a) := by
  rw [pbsTxScheme]
  split
  · exact leaves_afterStatus hs (fun _ => .some ⟨rfl, rfl, rfl, rfl⟩)
      fun _ => .some ⟨rfl, rfl, rfl, rfl⟩
  · exact leaves_afterStatus hs (fun _ => (leaves_sendAndGo _ a _ _ .txHost rfl).after rfl rfl rfl)
      fun _ => (leaves_sendFailed _ a).after rfl rfl rfl

lemma leaves_pbsTxHost (hs : pb.state.receiving = false) : AllLeave pb (pb.pbsTxHost a) := by
  refine leaves_afterStatus hs (fun pal => ?_) fun _ => (leaves_sendFailed _ a).after rfl rfl rfl
  split
  · exact (leaves_sendAndGo _ a _ _ .txPortNum rfl).after rfl rfl rfl
  · exact (leaves_sendAndGo _ a _ _ .txPath rfl).after rfl rfl rfl

lemma leaves_pbsTxOrigin (hs : pb.state.receiving = false) : AllLeave pb (pb.pbsTxOrigin a) := by
  refine leaves_afterStatus hs (fun pal => ?_) fun _ => (leaves_sendFailed _ a).after rfl rfl rfl
  split
  · split <;> exact (leaves_sendAndGo _ a _ _ .txExtraHeaders rfl).after rfl rfl rfl
  · split
    · exact (leaves_sendAndGo _ a _ _ .txExtraHeaders rfl).after rfl rfl rfl
    · exact (leaves_sendFinHead _ a).after rfl rfl rfl

lemma leaves_pbsTxFinHead (hs : pb.state.receiving = false) : AllLeave pb (pb.pbsTxFinHead a) := by
  refine leaves_afterStatus hs (fun pal => ?_) fun _ => (leaves_sendFailed _ a).after rfl rfl rfl
  split
  · exact (leaves_sendAndGo _ a _ _ .txBody rfl).after rfl rfl rfl
  · exact (leaves_awaitResponse _).after rfl rfl rfl

lemma leaves_enqueueForProcessing (hs : pb.state.receiving = false) :
    Leaves pb (pb.enqueueForProcessing a).pb := by
  rw [enqueueForProcessing]
  split
  · exact (leaves_transOutcome _ a .idle .ret rfl).after rfl rfl rfl
  · exact ⟨rfl, rfl, rfl, hs⟩
  · exact ⟨rfl, rfl, rfl, hs⟩

lemma leaves_startFailed (pb : Pb) (a : Answer) (rslt : PubnubRes) (next : Next) :
    Leaves pb (pb.startFailed a rslt next).pb := by
  rw [startFailed]
  dsimp only
  split
  · exact (leaves_closeConnection _ a .again).after rfl rfl rfl
  · exact (leaves_transOutcome _ a .idle next rfl).after rfl rfl rfl

lemma leaves_readyGotSocket {state : PbState} (hs : state.receiving = false) :
    Leaves pb (pb.readyGotSocket a state).pb := by
  rw [readyGotSocket]
  split
  · exact (leaves_startFailed _ a .connectFailed .brk).after rfl rfl rfl
  · exact ⟨rfl, rfl, rfl, hs⟩
  · exact ⟨rfl, rfl, rfl, hs⟩

lemma leaves_pbsReady : Leaves pb (pb.pbsReady a).pb := by
  rw [pbsReady]
  split
  all_goals first
    | exact leaves_readyGotSocket rfl
    | exact leaves_startFailed _ a .addrResolutionFailed .ret

/-- The three states that wait for the name and the connection. -/
lemma leaves_connecting (hs : pb.state.receiving = false) :
    Leaves pb (pb.pbsWaitDnsSend a).pb ∧ Leaves pb (pb.pbsWaitDnsRcv a).pb ∧
      Leaves pb (pb.pbsWaitConnect a).pb := by
  simp only [pbsWaitDnsSend, pbsWaitDnsRcv, pbsWaitConnect]
  cases a.resolv
  all_goals refine ⟨?_, ?_, ?_⟩
  all_goals first
    | exact leaves_outcomeDetected pb a _ .brk
    | exact ⟨rfl, rfl, rfl, hs⟩
    | exact ⟨rfl, rfl, rfl, rfl⟩

lemma leaves_whenClosed {closed : Pb → Pass} (hs : pb.state.receiving = false)
    (h : Leaves pb (closed pb).pb) : Leaves pb (pb.whenClosed a closed).pb := by
  rw [whenClosed]
  split
  · split
    · exact ⟨rfl, rfl, rfl, rfl⟩
    · exact h
  · exact ⟨rfl, rfl, rfl, hs⟩

lemma leaves_pbsWaitCancel : Leaves pb (pb.pbsWaitCancel a).pb := by
  obtain ⟨hr, hc, hl⟩ := leaves_pbpalClose pb
  rw [pbsWaitCancel]
  dsimp only
  split <;> exact ⟨hr, hc, hl, rfl⟩

lemma leaves_pbsKeepAliveReady : AllLeave pb (pb.pbsKeepAliveReady a) := by
  rw [pbsKeepAliveReady]
  split
  · exact .some ((leaves_transOutcome _ a .idle .brk rfl).after rfl rfl rfl)
  all_goals
    refine AllLeave.map fun r hr => ?_
    obtain ⟨hr, hc, hl, hst⟩ := leaves_pbpalSend hr
    split
    · exact (leaves_closeKeptAliveConnection r.1 a).after hr hc hl
    · exact ⟨hr, hc, hl, hst ▸ rfl⟩

/-- A pass in a state that does not read the response, except the one that reads the status
    line. -/
lemma leaves_pass (hs : pb.state.receiving = false) (hv : pb.state ≠ .rxHttpVer) :
    AllLeave pb (pb.pass a) := by
  rw [pass]
  cases hst : pb.state with
  | null | waitRetry => exact .some ⟨rfl, rfl, rfl, hs⟩
  | idle => exact .some ((leaves_enqueueForProcessing rfl).after rfl rfl rfl)
  | retry => exact .some ⟨rfl, rfl, rfl, rfl⟩
  | ready => exact .some leaves_pbsReady
  | waitDnsSend => exact .some (leaves_connecting hs).1
  | waitDnsRcv => exact .some (leaves_connecting hs).2.1
  | waitConnect => exact .some (leaves_connecting hs).2.2
  | connected => exact leaves_pbsConnected
  | waitTlsConnect => exact leaves_pbsWaitTlsConnect hs
  | txGet => exact leaves_pbsTxGet hs
  | txScheme => exact leaves_pbsTxScheme hs
  | txHost => exact leaves_pbsTxHost hs
  | txPortNum | txPath =>
      exact leaves_afterStatus hs (fun _ => (leaves_sendAndGo _ a _ _ .txVer rfl).after rfl rfl rfl)
        fun _ => (leaves_sendFailed _ a).after rfl rfl rfl
  | txVer =>
      exact leaves_afterStatus hs (fun _ => (leaves_sendAndGo _ a _ _ .txOrigin rfl).after rfl rfl rfl)
        fun _ => (leaves_sendFailed _ a).after rfl rfl rfl
  | txOrigin => exact leaves_pbsTxOrigin hs
  | txExtraHeaders =>
      exact leaves_afterStatus hs (fun _ => (leaves_sendFinHead _ a).after rfl rfl rfl)
        fun _ => (leaves_sendFailed _ a).after rfl rfl rfl
  | txFinHead => exact leaves_pbsTxFinHead hs
  | txBody =>
      exact leaves_afterStatus hs (fun _ => (leaves_awaitResponse _).after rfl rfl rfl)
        fun _ => (leaves_sendFailed _ a).after rfl rfl rfl
  | waitClose | waitCancelClose =>
      exact .some (leaves_whenClosed hs (leaves_transOutcome pb a .idle .brk rfl))
  | waitCancel => exact .some leaves_pbsWaitCancel
  | waitCancelDns => exact .some ((leaves_closeConnection _ a .again).after rfl rfl rfl)
  | keepAliveIdle => exact .some ((leaves_enqueueForProcessing rfl).after rfl rfl rfl)
  | keepAliveReady => exact leaves_pbsKeepAliveReady
  | keepAliveWaitClose => exact .some (leaves_whenClosed hs ⟨rfl, rfl, rfl, rfl⟩)
  | waitCancelKeepalive => exact .some (leaves_closeKeptAliveConnection pb a)
  | rxHttpVer => exact absurd hst hv
  | rxHeaders | rxHeaderLine | rxBody | rxBodyWait | rxChunkLen | rxChunkLenLine | rxBodyChunk
  | rxBodyChunkWait => exact absurd hs (by simp [hst, PbState.receiving])

/-! ## The invariant -/

/-- There is room for what the state machine is still going to copy to the reply. -/
def HasRoom (pb : Pb) : Prop :=
  match pb.state with
  | .rxHeaders | .rxHeaderLine => pb.httpContentLen = 0 ∨ pb.httpContentLen < pb.capacity
  | .rxBody | .rxBodyWait =>
      pb.httpBufLen ≤ pb.httpContentLen ∧ pb.httpContentLen < pb.capacity
  | .rxChunkLen | .rxChunkLenLine => pb.httpBufLen = 0 ∨ pb.httpBufLen < pb.capacity
  | .rxBodyChunk | .rxBodyChunkWait =>
      pb.httpBufLen + (pb.httpContentLen - chunkTrailLength) < pb.capacity
  | _ => True

/-- Everything has been written inside the buffer. -/
structure BufferSound (pb : Pb) : Prop where
  copies : ∀ c ∈ pb.copies, c.index + c.length ≤ c.capacity
  allocated : pb.httpReply ≠ none ↔ 0 < pb.capacity

/-- Everything has been written inside the buffer, and there is room for the rest. -/
structure ReplySound (pb : Pb) : Prop extends BufferSound pb where
  room : pb.HasRoom

lemma hasRoom_of_not_receiving (hs : pb.state.receiving = false) : pb.HasRoom := by
  rw [HasRoom]
  split
  all_goals first
    | trivial
    | (rename_i hst; exact absurd hs (by simp [hst, PbState.receiving]))

lemma BufferSound.keep (h : pb.BufferSound) (hr : pb'.httpReply = pb.httpReply)
    (hc : pb'.capacity = pb.capacity) (hl : pb'.copies = pb.copies) :
    pb'.BufferSound where
  copies := by
    rw [hl]
    exact h.copies
  allocated := by
    rw [hr, hc]
    exact h.allocated

lemma BufferSound.withPal (h : pb.BufferSound) (pal : Pal) : (pb.withPal pal).BufferSound := h.keep rfl rfl rfl

lemma BufferSound.leaves (h : pb.BufferSound) (hl : Leaves pb pb') : pb'.ReplySound :=
  ⟨h.keep hl.httpReply hl.capacity hl.copies, hasRoom_of_not_receiving hl.receiving⟩

/-- Writing inside the buffer. -/
lemma BufferSound.copyToReply (h : pb.BufferSound) (index : Nat) (src : Bytes)
    (hpos : 0 < pb.capacity) (hfit : index + src.length ≤ pb.capacity) :
    (pb.copyToReply index src).BufferSound where
  copies := by
    rintro c hc
    rcases List.mem_cons.mp hc with rfl | hc
    · exact hfit
    · exact h.copies c hc
  allocated := ⟨fun _ => hpos, fun _ => by simp [Pb.copyToReply]⟩

/-- A request for the buffer that does not wrap around. -/
lemma reallocReplyBuffer_spec (pb : Pb) {bytes : Nat} (hb : bytes + 1 < 2 ^ 32) :
    (pb.reallocReplyBuffer bytes true).1.capacity = bytes + 1 := by
  simp only [reallocReplyBuffer, if_true]
  omega

lemma BufferSound.realloc (h : pb.BufferSound) {bytes : Nat} (succeeds : Bool)
    (hb : succeeds = true → bytes + 1 < 2 ^ 32) :
    (pb.reallocReplyBuffer bytes succeeds).1.BufferSound := by
  cases succeeds with
  | false => exact h
  | true =>
      have hcap := reallocReplyBuffer_spec pb (hb rfl)
      exact ⟨h.copies, fun _ => by rw [hcap]; omega, fun _ => by simp [reallocReplyBuffer]⟩

/-! ## The end of the response -/

/-- After `pbcc_ensure_reply_buffer` there is room for the NUL. -/
lemma BufferSound.ensure (h : pb.BufferSound) (succeeds : Bool)
    (hlen : pb.httpBufLen = 0 ∨ pb.httpBufLen < pb.capacity) :
    (pb.ensureReplyBuffer succeeds).1.BufferSound ∧
      ((pb.ensureReplyBuffer succeeds).2 = true →
        (pb.ensureReplyBuffer succeeds).1.httpBufLen + 1 ≤
          (pb.ensureReplyBuffer succeeds).1.capacity) := by
  rw [ensureReplyBuffer]
  cases hreply : pb.httpReply with
  | some reply =>
      have hpos := h.allocated.mp (by rw [hreply]; simp)
      exact ⟨h, fun _ => by dsimp only; omega⟩
  | none =>
      have hzero : ¬ 0 < pb.capacity := fun hpos => h.allocated.mpr hpos hreply
      have hlen0 : pb.httpBufLen = 0 := by omega
      cases succeeds with
      | false => exact ⟨h, fun hf => absurd hf (by simp)⟩
      | true =>
          refine ⟨⟨h.copies, fun _ => Nat.one_pos, fun _ => by simp⟩, fun _ => ?_⟩
          show pb.httpBufLen + 1 ≤ 1
          omega

lemma BufferSound.finishReply {next : Next} (h : pb.BufferSound)
    (hlen : pb.httpBufLen = 0 ∨ pb.httpBufLen < pb.capacity) :
    (pb.finishReply a next).pb.ReplySound := by
  obtain ⟨hsound, hroom⟩ := h.ensure a.alloc hlen
  rw [Pb.finishReply]
  split
  · rename_i hok
    have hfit := hroom hok
    exact (hsound.copyToReply _ [0] (by omega) hfit).leaves (leaves_outcomeDetected _ a _ next)
  · exact hsound.leaves (leaves_outcomeDetected _ a _ next)

lemma pbproxyHandleFinish_fst (pb : Pb) :
    pb.pbproxyHandleFinish.1 = pb ∨
      pb.pbproxyHandleFinish.1 = { pb with proxyTunnelEstablished := true } := by
  rw [pbproxyHandleFinish]
  split
  · split <;> exact .inl rfl
  · split
    · exact .inr rfl
    · exact .inl rfl

lemma BufferSound.finish {next : Next} (h : pb.BufferSound)
    (hlen : pb.httpBufLen = 0 ∨ pb.httpBufLen < pb.capacity) :
    (pb.finish a next).pb.ReplySound := by
  have hfst : pb.pbproxyHandleFinish.1.BufferSound ∧
      (pb.pbproxyHandleFinish.1.httpBufLen = 0 ∨
        pb.pbproxyHandleFinish.1.httpBufLen < pb.pbproxyHandleFinish.1.capacity) := by
    rcases pbproxyHandleFinish_fst pb with heq | heq <;> rw [heq]
    · exact ⟨h, hlen⟩
    · exact ⟨h.keep rfl rfl rfl, hlen⟩
  rw [Pb.finish]
  rcases hfin : pb.pbproxyHandleFinish with ⟨q, instruction⟩
  rw [hfin] at hfst
  obtain ⟨hq, hlenq⟩ := hfst
  cases instruction with
  | error => exact hq.leaves ((leaves_outcomeDetected _ a .httpError next).after rfl rfl rfl)
  | retry =>
      dsimp only
      split
      · exact hq.leaves ((leaves_closeConnection _ a .again).after rfl rfl rfl)
      · exact hq.leaves ⟨rfl, rfl, rfl, rfl⟩
  | goOn => exact hq.finishReply hlenq

/-! ## The passes that receive -/

/-- Every end of the pass is sound. -/
def AllSound (x : Option Pass) : Prop := ∀ p, x = some p → p.pb.ReplySound

lemma AllSound.map {β : Type} {x : Option β} {f : β → Pass}
    (h : ∀ r, x = Option.some r → (f r).pb.ReplySound) : AllSound (x.map f) := by
  rintro p hp
  obtain ⟨r, hr, rfl⟩ := Option.map_eq_some_iff.mp hp
  exact h r hr

/-- The line which the pass reads to its end, with whatever `core.http_buf` holds behind it. -/
def lineRead (pb : Pb) (a : Answer) : Option Bytes :=
  match pb.pal.lineReadStatus a.recv with
  | some (pal, .ok) => some pal.buf.mem
  | _ => none

/-- The lengths which the server announces in this pass do not wrap around: a `Content-Length`
    for which there is a buffer is not read as -1, and the length of a chunk, with what has been
    received before and the final NUL, stays below 2^32. -/
def lengthsFit (pb : Pb) (a : Answer) : Bool :=
  match pb.state, pb.lineRead a with
  | .rxHeaderLine, some line =>
      !(startsWithCase line (ascii "Content-Length: ") && a.alloc && atoi (line.drop 16) == -1)
  | .rxChunkLenLine, some line =>
      !(strtoul line % 2 ^ 32 ≠ 0 && a.alloc) ||
        pb.httpBufLen + strtoul line % 2 ^ 32 + 1 < 2 ^ 32
  | _, _ => true

lemma toUnsigned_lt {z : Int} (hz : z ≠ -1) (hlo : -2 ^ 31 ≤ z) (hhi : z < 2 ^ 31) :
    toUnsigned z + 1 < 2 ^ 32 := by
  rw [toUnsigned]
  omega

lemma atoi_bounds (s : Bytes) : -2 ^ 31 ≤ atoi s ∧ atoi s < 2 ^ 31 := by
  rw [atoi]
  omega

lemma BufferSound.statusLineRead (h : pb.BufferSound) (hs : pb.state.receiving = false)
    (rslt : PubnubRes) : (pb.statusLineRead a rslt).pb.ReplySound := by
  rw [Pb.statusLineRead.eq_def]
  split
  · exact h.leaves ⟨rfl, rfl, rfl, hs⟩
  · split
    · exact ⟨h.keep rfl rfl rfl, .inl rfl⟩
    · exact h.leaves (leaves_outcomeDetected pb a .ioError .brk)
  · split
    · exact h.leaves (leaves_closeKeptAliveConnection pb a)
    · exact h.leaves (leaves_outcomeDetected pb a _ .brk)
  · split
    · exact h.leaves (leaves_closeKeptAliveConnection pb a)
    · exact h.leaves (leaves_outcomeDetected pb a _ .brk)
  · exact h.leaves (leaves_outcomeDetected pb a rslt .brk)

lemma BufferSound.endOfHeaders (h : pb.BufferSound)
    (hroom : pb.httpContentLen = 0 ∨ pb.httpContentLen < pb.capacity) :
    (pb.endOfHeaders a).pb.ReplySound := by
  rw [Pb.endOfHeaders]
  dsimp only
  split
  · exact ⟨h.keep rfl rfl rfl, .inl rfl⟩
  · split
    · split
      · exact BufferSound.finish (h.keep rfl rfl rfl) (.inl rfl)
      · exact h.leaves ((leaves_outcomeDetected _ a .ioError .brk).after rfl rfl rfl)
    · rename_i hne
      exact ⟨h.keep rfl rfl rfl, Nat.zero_le _, hroom.resolve_left hne⟩

lemma pbproxyHandleHttpHeader_some {q : Pb} (h : pb.pbproxyHandleHttpHeader a = some q) :
    q.httpReply = pb.httpReply ∧ q.capacity = pb.capacity ∧ q.copies = pb.copies ∧
      q.httpContentLen = pb.httpContentLen := by
  rw [pbproxyHandleHttpHeader] at h
  split at h
  · exact Option.some.inj h ▸ ⟨rfl, rfl, rfl, rfl⟩
  · cases h
  · exact Option.some.inj h ▸ ⟨rfl, rfl, rfl, rfl⟩

/-- A header line.  Only the lengths which `Content-Length` announces need a condition. -/
lemma BufferSound.headerLine (h : pb.BufferSound)
    (hroom : pb.httpContentLen = 0 ∨ pb.httpContentLen < pb.capacity)
    (hfit : startsWithCase pb.httpBuf (ascii "Content-Length: ") = true → a.alloc = true →
      atoi (pb.httpBuf.drop 16) ≠ -1) :
    (pb.headerLine a).pb.ReplySound := by
  rw [Pb.headerLine]
  dsimp only
  split
  · exact ⟨h.keep rfl rfl rfl, hroom⟩
  · split
    · rename_i hline
      have hb : a.alloc = true → toUnsigned (atoi (pb.httpBuf.drop 16)) + 1 < 2 ^ 32 := by
        intro halloc
        obtain ⟨hlo, hhi⟩ := atoi_bounds (pb.httpBuf.drop 16)
        exact toUnsigned_lt (hfit hline halloc) hlo hhi
      have hrealloc := h.realloc a.alloc hb
      split
      · rename_i hok
        refine ⟨hrealloc.keep rfl rfl rfl, .inr ?_⟩
        have halloc : a.alloc = true := by
          cases halloc : a.alloc with
          | true => rfl
          | false => exact absurd hok (by simp [reallocReplyBuffer, halloc])
        have hcap := reallocReplyBuffer_spec pb (hb halloc)
        rw [← halloc] at hcap
        show toUnsigned _ < (pb.reallocReplyBuffer _ a.alloc).1.capacity
        omega
      · exact hrealloc.leaves (leaves_outcomeDetected _ a .replyTooBig .brk)
    · split
      · exact ⟨h.keep rfl rfl rfl, hroom⟩
      · split
        · exact ⟨h.keep rfl rfl rfl, hroom⟩
        · split
          · exact h.leaves (leaves_outcomeDetected pb a .authenticationFailed .ret)
          · rename_i q hq
            obtain ⟨hr, hc, hl, hlen⟩ := pbproxyHandleHttpHeader_some hq
            refine ⟨h.keep hr hc hl, ?_⟩
            show q.httpContentLen = 0 ∨ q.httpContentLen < q.capacity
            rw [hlen, hc]
            exact hroom

lemma BufferSound.headerLineRead (h : pb.BufferSound) (hst : pb.state = .rxHeaderLine)
    (hroom : pb.httpContentLen = 0 ∨ pb.httpContentLen < pb.capacity) {rslt : PubnubRes}
    (hfit : rslt = .ok → startsWithCase pb.httpBuf (ascii "Content-Length: ") = true →
      a.alloc = true → atoi (pb.httpBuf.drop 16) ≠ -1) :
    (pb.headerLineRead a rslt).pb.ReplySound := by
  rw [Pb.headerLineRead.eq_def]
  split
  · refine ⟨h, ?_⟩
    rw [Pb.brk, HasRoom, hst]
    exact hroom
  · exact ⟨h.keep rfl rfl rfl, hroom⟩
  · split
    · exact h.endOfHeaders hroom
    · exact h.headerLine hroom (hfit rfl)
  · exact h.leaves (leaves_outcomeDetected pb a rslt .brk)

lemma BufferSound.chunkLenRead (h : pb.BufferSound) (hst : pb.state = .rxChunkLenLine)
    (hroom : pb.httpBufLen = 0 ∨ pb.httpBufLen < pb.capacity) {rslt : PubnubRes}
    (hfit : rslt = .ok → strtoul pb.httpBuf % 2 ^ 32 ≠ 0 → a.alloc = true →
      pb.httpBufLen + strtoul pb.httpBuf % 2 ^ 32 + 1 < 2 ^ 32) :
    (pb.chunkLenRead a rslt).pb.ReplySound := by
  rw [Pb.chunkLenRead.eq_def]
  split
  · refine ⟨h, ?_⟩
    rw [Pb.brk, HasRoom, hst]
    exact hroom
  · dsimp only
    split
    · exact h.finish hroom
    · rename_i hne
      have hb := hfit rfl hne
      have hrealloc := h.realloc a.alloc hb
      split
      · rename_i hok
        refine ⟨hrealloc.keep rfl rfl rfl, ?_⟩
        have halloc : a.alloc = true := by
          cases halloc : a.alloc with
          | true => rfl
          | false => exact absurd hok (by simp [reallocReplyBuffer, halloc])
        have hcap := reallocReplyBuffer_spec pb (hb halloc)
        rw [← halloc] at hcap
        have hlen : (pb.reallocReplyBuffer (pb.httpBufLen + strtoul pb.httpBuf % 2 ^ 32)
            a.alloc).1.httpBufLen = pb.httpBufLen := by
          rw [reallocReplyBuffer]
          split <;> rfl
        have hlt := hb halloc
        show (pb.reallocReplyBuffer _ a.alloc).1.httpBufLen +
            ((strtoul pb.httpBuf % 2 ^ 32 + chunkTrailLength) % 2 ^ 32 - chunkTrailLength) <
          (pb.reallocReplyBuffer _ a.alloc).1.capacity
        rw [hlen, hcap]
        simp only [chunkTrailLength]
        omega
      · exact hrealloc.leaves (leaves_outcomeDetected _ a .replyTooBig .brk)
  · exact h.leaves (leaves_outcomeDetected pb a rslt .brk)

lemma copyToReply_capacity (pb : Pb) (index : Nat) (src : Bytes) :
    (pb.copyToReply index src).capacity = pb.capacity := rfl

lemma BufferSound.bodyRead (h : pb.BufferSound) (hst : pb.state = .rxBodyWait)
    (hroom : pb.httpBufLen ≤ pb.httpContentLen ∧ pb.httpContentLen < pb.capacity)
    (rslt : PubnubRes) : AllSound (pb.bodyRead a rslt) := by
  rw [Pb.bodyRead.eq_def]
  rintro p hp
  split at hp
  · obtain rfl := Option.some.inj hp
    refine ⟨h, ?_⟩
    rw [Pb.brk, HasRoom, hst]
    exact hroom
  · dsimp only at hp
    split at hp
    · rename_i hle
      obtain rfl := Option.some.inj hp
      have htake : (pb.httpBuf.take pb.pal.readLen).length ≤ pb.pal.readLen :=
        List.length_take_le _ _
      have hcopy := h.copyToReply pb.httpBufLen (pb.httpBuf.take pb.pal.readLen) (by omega)
        (by omega)
      exact ⟨hcopy.keep rfl rfl rfl, hle, hroom.2⟩
    · cases hp
  · exact Option.some.inj hp ▸ h.leaves (leaves_outcomeDetected pb a rslt .brk)

lemma BufferSound.copyChunk (h : pb.BufferSound) (len : Nat)
    (hroom : pb.httpBufLen + (pb.httpContentLen - chunkTrailLength) < pb.capacity) :
    (pb.copyChunk len).BufferSound ∧ (pb.copyChunk len).capacity = pb.capacity ∧
      (pb.copyChunk len).httpBufLen =
        pb.httpBufLen + min len (pb.httpContentLen - chunkTrailLength) := by
  rw [Pb.copyChunk]
  split
  · have htake : (pb.httpBuf.take (min len (pb.httpContentLen - chunkTrailLength))).length ≤
        min len (pb.httpContentLen - chunkTrailLength) :=
      List.length_take_le _ _
    have hcopy := h.copyToReply pb.httpBufLen
      (pb.httpBuf.take (min len (pb.httpContentLen - chunkTrailLength))) (by omega) (by omega)
    exact ⟨hcopy.keep rfl rfl rfl, rfl, rfl⟩
  · exact ⟨h, rfl, by omega⟩

lemma BufferSound.chunkRead (h : pb.BufferSound) (hst : pb.state = .rxBodyChunkWait)
    (hroom : pb.httpBufLen + (pb.httpContentLen - chunkTrailLength) < pb.capacity)
    (rslt : PubnubRes) : AllSound (pb.chunkRead a rslt) := by
  rw [Pb.chunkRead.eq_def]
  rintro p hp
  split at hp
  · obtain rfl := Option.some.inj hp
    refine ⟨h, ?_⟩
    rw [Pb.brk, HasRoom, hst]
    exact hroom
  · dsimp only at hp
    split at hp
    · rename_i hle
      obtain rfl := Option.some.inj hp
      obtain ⟨hsound, hcap, hlen⟩ := h.copyChunk pb.pal.readLen hroom
      refine ⟨hsound.keep rfl rfl rfl, ?_⟩
      show (pb.copyChunk pb.pal.readLen).httpBufLen +
          (pb.httpContentLen - pb.pal.readLen - chunkTrailLength) <
        (pb.copyChunk pb.pal.readLen).capacity
      rw [hlen, hcap]
      omega
    · cases hp
  · exact Option.some.inj hp ▸ h.leaves (leaves_outcomeDetected pb a rslt .brk)

/-- The bodies of the responses, read to their end or a piece further. -/
lemma ReplySound.pbsRxBody (h : pb.ReplySound) (hst : pb.state = .rxBody) :
    AllSound (pb.pbsRxBody a) := by
  have hroom := h.room
  rw [HasRoom, hst] at hroom
  rw [Pb.pbsRxBody]
  split
  · exact AllSound.map fun _ _ => ⟨h.keep rfl rfl rfl, hroom⟩
  · rintro p hp
    obtain rfl := Option.some.inj hp
    exact h.finish (.inr (by omega))

lemma ReplySound.pbsRxBodyChunk (h : pb.ReplySound) (hst : pb.state = .rxBodyChunk) :
    AllSound pb.pbsRxBodyChunk := by
  have hroom := h.room
  rw [HasRoom, hst] at hroom
  rw [Pb.pbsRxBodyChunk]
  split
  · exact AllSound.map fun _ _ => ⟨h.keep rfl rfl rfl, hroom⟩
  · rintro p hp
    obtain rfl := Option.some.inj hp
    refine ⟨h.keep rfl rfl rfl, .inr ?_⟩
    show pb.httpBufLen < pb.capacity
    omega

/-- **One pass.**  As long as the lengths that the server announces fit, what the pass copies
    stays inside the buffer. -/
lemma ReplySound.pass (h : pb.ReplySound) (hfit : pb.lengthsFit a = true) :
    AllSound (pb.pass a) := by
  have hroom := h.room
  by_cases hs : pb.state.receiving = false
  · by_cases hv : pb.state = .rxHttpVer
    · simp only [Pb.pass, hv]
      exact AllSound.map fun r _ => (h.withPal r.1).statusLineRead hs r.2
    · exact fun p hp => h.leaves (leaves_pass hs hv p hp)
  · cases hst : pb.state with
    | rxHeaders =>
        rw [HasRoom, hst] at hroom
        simp only [Pb.pass, hst]
        exact AllSound.map fun _ _ => ⟨h.keep rfl rfl rfl, hroom⟩
    | rxHeaderLine =>
        rw [HasRoom, hst] at hroom
        simp only [Pb.pass, hst]
        refine AllSound.map fun r hr => ?_
        refine (h.withPal r.1).headerLineRead hst hroom fun hok hline halloc => ?_
        obtain ⟨pal, rslt⟩ := r
        obtain rfl : rslt = .ok := hok
        have hline' : startsWithCase pal.buf.mem (ascii "Content-Length: ") = true := hline
        simp only [lengthsFit, hst, lineRead, hr, hline', halloc] at hfit
        show atoi (pal.buf.mem.drop 16) ≠ -1
        simpa using hfit
    | rxBody => simpa only [Pb.pass, hst] using h.pbsRxBody hst
    | rxBodyWait =>
        rw [HasRoom, hst] at hroom
        simp only [Pb.pass, hst]
        rintro p hp
        obtain ⟨r, _, hr⟩ := Option.bind_eq_some_iff.mp hp
        exact (h.withPal r.1).bodyRead hst hroom r.2 p hr
    | rxChunkLen =>
        rw [HasRoom, hst] at hroom
        simp only [Pb.pass, hst]
        exact AllSound.map fun _ _ => ⟨h.keep rfl rfl rfl, hroom⟩
    | rxChunkLenLine =>
        rw [HasRoom, hst] at hroom
        simp only [Pb.pass, hst]
        refine AllSound.map fun r hr => ?_
        refine (h.withPal r.1).chunkLenRead hst hroom fun hok hne halloc => ?_
        obtain ⟨pal, rslt⟩ := r
        obtain rfl : rslt = .ok := hok
        have hne' : strtoul pal.buf.mem % 2 ^ 32 ≠ 0 := hne
        simp only [lengthsFit, hst, lineRead, hr, halloc] at hfit
        have hor : strtoul pal.buf.mem % 2 ^ 32 = 0 ∨
            pb.httpBufLen + strtoul pal.buf.mem % 2 ^ 32 + 1 < 2 ^ 32 := by
          simpa using hfit
        exact hor.resolve_left hne'
    | rxBodyChunk => simpa only [Pb.pass, hst] using h.pbsRxBodyChunk hst
    | rxBodyChunkWait =>
        rw [HasRoom, hst] at hroom
        simp only [Pb.pass, hst]
        rintro p hp
        obtain ⟨r, _, hr⟩ := Option.bind_eq_some_iff.mp hp
        exact (h.withPal r.1).chunkRead hst hroom r.2 p hr
    | _ => exact absurd (by simp [hst, PbState.receiving]) hs

/-! ## The runs -/

lemma ReplySound.requeue (h : pb.ReplySound) (room : Bool) : (pb.requeue room).ReplySound := by
  rw [Pb.requeue]
  split
  · exact ⟨h.keep rfl rfl rfl, h.room⟩
  · exact h

/-- A stopped transaction waits for the connection to be closed. -/
lemma BufferSound.stopDefault (h : pb.BufferSound) (room : Bool) :
    (pb.stopDefault room).ReplySound := by
  refine ReplySound.requeue ?_ room
  exact ⟨h.keep rfl rfl rfl, hasRoom_of_not_receiving rfl⟩

lemma BufferSound.stopKeptAlive (h : pb.BufferSound) (room : Bool) :
    (pb.stopKeptAlive room).ReplySound := by
  rw [Pb.stopKeptAlive]
  split
  · refine ReplySound.requeue ?_ room
    exact ⟨h.keep rfl rfl rfl, hasRoom_of_not_receiving rfl⟩
  · exact h.stopDefault room

lemma BufferSound.stopConnecting (h : pb.BufferSound) (room dns : Bool) :
    (pb.stopConnecting room dns).ReplySound := by
  rw [Pb.stopConnecting]
  split
  · split
    · refine BufferSound.stopDefault ?_ room
      exact h.keep rfl rfl rfl
    · split
      · refine ReplySound.requeue ?_ room
        exact ⟨h.keep rfl rfl rfl, hasRoom_of_not_receiving rfl⟩
      · refine BufferSound.stopDefault ?_ room
        exact h.keep rfl rfl rfl
  · exact h.stopDefault room

/-- `pbnc_stop` touches neither the reply nor what is known of the response. -/
lemma ReplySound.pbncStop (h : pb.ReplySound) (rslt : PubnubRes) (room dns : Bool) :
    (pb.pbncStop rslt room dns).ReplySound := by
  have hq : { pb with lastResult := rslt }.BufferSound := h.keep rfl rfl rfl
  rw [Pb.pbncStop]
  split
  · exact ⟨hq, h.room⟩
  · exact ⟨hq, h.room⟩
  · exact ⟨hq, h.room⟩
  · exact hq.stopConnecting room dns
  · exact hq.stopConnecting room dns
  · exact hq.stopConnecting room dns
  · exact ⟨hq.keep rfl rfl rfl, h.room⟩
  · refine BufferSound.stopKeptAlive ?_ room
    exact hq.keep rfl rfl rfl
  · exact hq.stopKeptAlive room
  · exact hq.stopDefault room

end Pb

namespace Net

open Pb

lemma replySound_unwind {pb : Pb} (h : pb.ReplySound) (stack : List Frame) :
    (unwind pb stack).1.ReplySound := by
  induction stack generalizing pb with
  | nil => exact h
  | cons frame rest ih =>
      cases frame with
      | fsm | user => exact h
      | rest keptAlive next =>
          have hafter : (pb.afterOutcome keptAlive).ReplySound := by
            cases keptAlive with
            | false => exact h
            | true => exact ⟨h.keep rfl rfl rfl, h.room⟩
          rw [unwind]
          split
          · exact hafter
          · exact ih hafter
      | retryThread =>
          rw [unwind]
          exact ih ⟨h.keep rfl rfl rfl, h.room⟩

lemma replySound_endPass {s : Net} {p : Pass} (h : p.pb.ReplySound) (stack : List Frame) :
    (s.endPass p stack).pb.ReplySound := by
  rw [endPass]
  split
  · exact replySound_unwind h _
  · exact h
  · exact h
  · exact h

/-- The lengths which the server announces fit, in the pass which the step makes. -/
def lengthsFit (s : Net) : NetStep → Bool
  | .fsm a => s.pb.lengthsFit a
  | _ => true

/-- **One step.** -/
lemma replySound_step {s s' : Net} {l : NetStep} (h : s.pb.ReplySound) (hg : s.lengthsFit l = true)
    (hs : s.step l = some s') : s'.pb.ReplySound := by
  cases l with
  | start r =>
      simp only [step, Option.ite_none_right_eq_some, Option.some.injEq, Bool.and_eq_true] at hs
      obtain ⟨⟨⟨_, hcan⟩, _⟩, rfl⟩ := hs
      have hidle : s.pb.state.receiving = false := by
        rcases Bool.or_eq_true _ _ ▸ hcan with hst | hst <;> rw [eq_of_beq hst] <;> rfl
      exact ⟨h.keep rfl rfl rfl, hasRoom_of_not_receiving hidle⟩
  | cancel room =>
      simp only [step, Option.ite_none_right_eq_some, Option.some.injEq] at hs
      obtain ⟨_, rfl⟩ := hs
      exact h.pbncStop .cancelled room false
  | callbackReturns =>
      rw [step] at hs
      split at hs
      · obtain rfl := Option.some.inj hs
        exact replySound_unwind h _
      · cases hs
  | fsm a =>
      rw [step] at hs
      split at hs
      · obtain ⟨p, hp, rfl⟩ := Option.map_eq_some_iff.mp hs
        exact replySound_endPass (h.pass hg p hp) _
      · cases hs
  | processQueue =>
      simp only [step, Option.ite_none_right_eq_some, Option.some.injEq] at hs
      obtain ⟨_, rfl⟩ := hs
      exact ⟨h.keep rfl rfl rfl, h.room⟩
  | pollEvent room =>
      simp only [step, Option.ite_none_right_eq_some, Option.some.injEq] at hs
      obtain ⟨_, rfl⟩ := hs
      exact h.requeue room
  | timeout room dns =>
      simp only [step, Option.ite_none_right_eq_some, Option.some.injEq] at hs
      obtain ⟨_, rfl⟩ := hs
      have hexpired : { s.pb with timer := false }.ReplySound := ⟨h.keep rfl rfl rfl, h.room⟩
      exact hexpired.pbncStop .timeout room dns
  | retryExpired =>
      simp only [step, Option.ite_none_right_eq_some, Option.some.injEq] at hs
      obtain ⟨_, rfl⟩ := hs
      rw [retryExpired]
      split
      · exact ⟨h.keep rfl rfl rfl, hasRoom_of_not_receiving rfl⟩
      · exact ⟨h.keep rfl rfl rfl, h.room⟩
  | arrive bytes =>
      obtain rfl := Option.some.inj hs
      exact ⟨h.keep rfl rfl rfl, h.room⟩

/-- A response of two chunks and its end, with a pass for each of its parts. -/
def chunkedRun : List NetStep :=
  answeredRun timeRequest (ascii
    "HTTP/1.1 200 OK\r\nTransfer-Encoding: chunked\r\n\r\n3\r\n[1,\r\n2\r\n2]\r\n0\r\n\r\n") ++
    List.replicate 17 (.fsm willing)

/-- The server announces a negative length, and sends a body nevertheless. -/
def negativeLengthRun : List NetStep :=
  answeredRun timeRequest (ascii "HTTP/1.1 200 OK\r\nContent-Length: -1\r\n\r\n") ++
    List.replicate 6 (.fsm willing) ++ [.arrive (List.replicate pubnubBufMaxlen 91), .fsm willing]

end Net

end PubNub
