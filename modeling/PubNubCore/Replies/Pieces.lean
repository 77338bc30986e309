import PubNubCore.Lib.Machine
import PubNubCore.Replies.Windows

/-!
# What is handed out of the replies

A context runs one transaction after the other, and between them the program hands out what is
in the windows: `pubnub_get`, `pubnub_get_channel`, and the functions for the messages of the
second subscribe and for the message counts, which move the window of the messages too.

**Whose pieces.**  Next to the windows of the context stand its own windows for the reply in the
buffer: those of a context that is cleared whenever other bytes come into the buffer.  What the
context yields should be what it would yield from them.

**What is not decided here.**  Which transaction is started next, what the server answers, when a
transaction breaks off, and what it has left in the buffer by then, are labels of the steps.
-/

namespace PubNub

/-- The preparation of the transaction turns it down while messages are left. -/
def Pbtt.checksMessages : Pbtt → Bool
  | .subscribe | .subscribeV2 | .time | .heartbeat | .setState | .stateGet | .messageCounts => true
  | _ => false

/-- The preparation of the transaction clears the window of the messages. -/
def Pbtt.clearsMessages : Pbtt → Bool
  | .none | .publish | .signal | .leave | .setState | .stateGet | .removeChannelGroup
  | .removeChannelFromGroup | .addChannelToGroup | .listChannelGroup => false
  | _ => true

/-- `PNR_RX_BUFF_NOT_EMPTY`. -/
def Pbtt.rxBuffNotEmpty (t : Pbtt) (w : Windows) : Bool :=
  t.checksMessages && !decide w.msg.Empty

/-- What the preparation does with the windows. -/
def Pbtt.prepare (t : Pbtt) (w : Windows) : Windows :=
  if t.clearsMessages then { w with msg := .cleared } else w

/-- `pbcc_get_msg` without a crypto module, and `pbcc_get_channel`: the text and the window
    behind it. -/
def pbccGet (m : Memory) (w : OffsetWindow) : Option Bytes × OffsetWindow :=
  let p := w.next fun i => (m.stringAt i).length
  (p.1.map m.stringAt, p.2)

/-- What `pbcc_get_msg_v2` does to the window: it goes behind the object that begins there. -/
def pbccGetMsgV2Window (m : Memory) (w : OffsetWindow) : OffsetWindow :=
  w.skipTo fun (ofs, stop) =>
    if m.byte ofs ≠ 123 then ofs
    else
      let seeker := (pbjsonFindEndComplex m ofs stop).toNat
      if seeker = stop then ofs else seeker + 2

/-- What `pbcc_get_message_counts` and `pbcc_get_chan_msg_counts` do to the window. -/
def pbccGetMessageCountsWindow (w : OffsetWindow) : OffsetWindow := w.skipTo fun p => p.2

/-- A context, as far as its replies are concerned. -/
structure PieceState where
  httpReply : Memory
  windows : Windows
  /-- The windows of the reply in the buffer alone. -/
  own : Windows
  /-- The last reply that was parsed had the wrong format. -/
  notParsed : Bool

inductive PieceStep
  | prep (t : Pbtt)
  /-- The transaction has received a reply, which is parsed. -/
  | answered (t : Pbtt) (r : Reply)
  /-- The transaction has ended without its reply being parsed, and has left this. -/
  | brokenOff (httpReply : Memory)
  /-- The connection is closed after a cancel (`PBS_WAIT_CANCEL_CLOSE`). -/
  | cancelled
  | get
  | getChannel
  | getV2
  | getMessageCounts

namespace PieceState

variable (s : PieceState)

/-- Moves both windows of the messages. -/
def moveMsg (move : OffsetWindow → OffsetWindow) : PieceState :=
  { s with
    windows := { s.windows with msg := move s.windows.msg }
    own := { s.own with msg := move s.own.msg } }

/-- Moves both windows of the channels. -/
def moveChan (move : OffsetWindow → OffsetWindow) : PieceState :=
  { s with
    windows := { s.windows with chan := move s.windows.chan }
    own := { s.own with chan := move s.own.chan } }

def step : PieceStep → PieceState
  | .prep t =>
      if t.rxBuffNotEmpty s.windows then s
      else { s with windows := t.prepare s.windows, own := t.prepare s.own }
  | .answered t r =>
      let p := aParseResponse t r
      { httpReply := p.httpReply
        windows := p.apply s.windows
        own := p.apply .cleared
        notParsed := decide (p.result = .formatError) }
  | .brokenOff httpReply => { s with httpReply, own := .cleared }
  | .cancelled => s.moveMsg fun _ => .cleared
  | .get => s.moveMsg fun w => (pbccGet s.httpReply w).2
  | .getChannel => s.moveChan fun w => (pbccGet s.httpReply w).2
  | .getV2 => s.moveMsg (pbccGetMsgV2Window s.httpReply)
  | .getMessageCounts => s.moveMsg pbccGetMessageCountsWindow

/-- **The pieces belong to the reply.**  The context yields what it would yield from the windows of
    the reply in its buffer alone, and no transaction is turned down because of a reply that did
    not parse. -/
structure Right : Prop where
  get : (pbccGet s.httpReply s.windows.msg).1 = (pbccGet s.httpReply s.own.msg).1
  getChannel : (pbccGet s.httpReply s.windows.chan).1 = (pbccGet s.httpReply s.own.chan).1
  notRefused : s.notParsed = true → ∀ t : Pbtt, t.rxBuffNotEmpty s.windows = false

end PieceState

/-- The runs of a context.  `pbcc_init` clears the window of the messages, and leaves in the one
    of the channels what it finds there. -/
def pieceRuns (chan : OffsetWindow) : Machine PieceState PieceStep where
  init :=
    { httpReply := { cells := [] }
      windows := ⟨.cleared, chan⟩
      own := ⟨.cleared, chan⟩
      notParsed := false }
  step s a := some (s.step a)

/-- A reply meets its parser clear, and a transaction that breaks off finds both windows empty. -/
def PieceClear (s : PieceState) : PieceStep → Prop
  | .answered t r => ParserClear t r s.windows
  | .brokenOff _ => s.windows.msg.Empty ∧ s.windows.chan.Empty
  | _ => True

instance (s : PieceState) : (a : PieceStep) → Decidable (PieceClear s a)
  | .answered t r => inferInstanceAs (Decidable (ParserClear t r s.windows))
  | .brokenOff _ => inferInstanceAs (Decidable (_ ∧ _))
  | .prep _ | .cancelled | .get | .getChannel | .getV2 | .getMessageCounts =>
      inferInstanceAs (Decidable True)

/-! ## The invariant -/

namespace PieceState

variable {s : PieceState}

/-- The windows of the context yield what its own windows yield. -/
structure Sound (s : PieceState) : Prop where
  alike : s.windows.Alike s.own
  empty : s.notParsed = true → s.windows.msg.Empty

lemma pbccGet_congr {m : Memory} {v w : OffsetWindow} (h : v.visible = w.visible) :
    (pbccGet m v).1 = (pbccGet m w).1 ∧ (pbccGet m v).2.visible = (pbccGet m w).2.visible := by
  obtain ⟨hpiece, hwindow⟩ := OffsetWindow.next_congr (fun i => (m.stringAt i).length) h
  refine ⟨?_, hwindow⟩
  rw [pbccGet, pbccGet, hpiece]

lemma Sound.right (h : s.Sound) : s.Right where
  get := (pbccGet_congr h.alike.1).1
  getChannel := (pbccGet_congr h.alike.2).1
  notRefused := by
    intro hno t
    rw [Pbtt.rxBuffNotEmpty, decide_eq_true (h.empty hno)]
    exact Bool.and_false _

/-- A move that depends on nothing but what is visible of a window. -/
lemma Sound.moveMsg (h : s.Sound) {move : OffsetWindow → OffsetWindow}
    (hsame : ∀ v w : OffsetWindow, v.visible = w.visible → (move v).visible = (move w).visible)
    (hempty : ∀ w : OffsetWindow, w.Empty → (move w).Empty) : (s.moveMsg move).Sound where
  alike := ⟨hsame _ _ h.alike.1, h.alike.2⟩
  empty hno := hempty _ (h.empty hno)

lemma Sound.moveChan (h : s.Sound) {move : OffsetWindow → OffsetWindow}
    (hsame : ∀ v w : OffsetWindow, v.visible = w.visible → (move v).visible = (move w).visible) :
    (s.moveChan move).Sound where
  alike := ⟨h.alike.1, hsame _ _ h.alike.2⟩
  empty := h.empty

/-- **One step** that meets its condition. -/
lemma Sound.step (h : s.Sound) {a : PieceStep} (hc : PieceClear s a) : (s.step a).Sound := by
  cases a with
  | prep t =>
      rw [PieceState.step]
      split
      · exact h
      · rw [Pbtt.prepare, Pbtt.prepare]
        split
        · exact ⟨⟨rfl, h.alike.2⟩, fun _ => OffsetWindow.empty_cleared⟩
        · exact h
  | answered t r =>
      obtain ⟨hmsg, hchan⟩ := (parsedRight_iff_clear t r s.windows).mpr hc
      exact ⟨⟨hmsg.1, hchan.1⟩, fun hno => hmsg.2.2 (of_decide_eq_true hno)⟩
  | brokenOff httpReply =>
      refine ⟨⟨?_, ?_⟩, h.empty⟩
      · exact OffsetWindow.visible_eq_none.mpr hc.1
      · exact OffsetWindow.visible_eq_none.mpr hc.2
  | cancelled => exact h.moveMsg (fun _ _ _ => rfl) fun _ _ => OffsetWindow.empty_cleared
  | get => exact h.moveMsg (fun _ _ hv => (pbccGet_congr hv).2) fun _ hw => hw.next
  | getChannel => exact h.moveChan fun _ _ hv => (pbccGet_congr hv).2
  | getV2 =>
      exact h.moveMsg (fun _ _ => OffsetWindow.visible_skipTo_congr)
        fun _ => OffsetWindow.Empty.skipTo
  | getMessageCounts =>
      exact h.moveMsg (fun _ _ => OffsetWindow.visible_skipTo_congr)
        fun _ => OffsetWindow.Empty.skipTo

end PieceState

/-- **The windows are those of the reply in the buffer.**  A parser leaves them so exactly if it
    was clear, and in a run whose replies all met a clear parser, and whose broken transactions
    found the windows empty, the pieces always belong to the reply. -/
theorem windows_of_own_reply (chan : OffsetWindow) :
    (∀ (t : Pbtt) (r : Reply) (w : Windows),
      (aParseResponse t r).Right r.len w ↔ ParserClear t r w) ∧
    ∀ s : PieceState, (pieceRuns chan).Reachable PieceClear s → s.Right := by
  refine ⟨parsedRight_iff_clear, fun s hr => ?_⟩
  have hsound : s.Sound := by
    refine hr.invariant (P := PieceState.Sound) ⟨⟨rfl, rfl⟩, fun hno => by cases hno⟩ ?_
    intro s a s' h hc hst
    cases hst
    exact h.step hc
  exact hsound.right

/-! ## Three replies -/

/-- A reply of subscribe with two messages. -/
def twoMessages : Reply := { body := ascii "[[\"twelve chars\",2],\"15\"]", fits := by decide }

/-- A reply of publish. -/
def sentPublish : Reply := { body := ascii "[1,\"Sent\",\"16\"]", fits := by decide }

/-- A reply of publish that is denied. -/
def deniedPublish : Reply := { body := ascii "\x7b\"status\":403\x7d", fits := by decide }

/-- Both messages are taken out before the context publishes and subscribes again. -/
theorem windows_of_own_reply_takenOut : ∃ s : PieceState, s.notParsed = false ∧ s.Right := by
  obtain ⟨s, hr, hs⟩ := (pieceRuns .cleared).exists_reachable_of_replay (G := PieceClear)
    (fun s a => decide (PieceClear s a))
    [.prep .subscribe, .answered .subscribe twoMessages, .get, .get, .prep .publish,
      .answered .publish sentPublish, .prep .subscribe]
    (fun s => !s.notParsed) (fun _ _ => of_decide_eq_true) (by decide +kernel)
  exact ⟨s, by simpa using hs, (windows_of_own_reply _).2 s hr⟩

/-- **The windows are not always those of the reply in the buffer.**  The messages of a subscribe
    are still in the window when a publish is denied, and what is yielded next is a piece of the
    denial. -/
theorem windows_not_always_of_own_reply :
    ∃ s, (pieceRuns .cleared).Reachable Machine.anyStep s ∧
      ¬ (aParseResponse .publish deniedPublish).Right deniedPublish.len s.windows ∧
      ¬ (s.step (.answered .publish deniedPublish)).Right := by
  obtain ⟨s, hr, hs⟩ := (pieceRuns .cleared).exists_reachable_of_replay (G := Machine.anyStep)
    (fun _ _ => true) [.prep .subscribe, .answered .subscribe twoMessages]
    (fun s =>
      let s' := s.step (.answered .publish deniedPublish)
      !decide ((aParseResponse .publish deniedPublish).Right deniedPublish.len s.windows) &&
        (pbccGet s'.httpReply s'.windows.msg).1 != (pbccGet s'.httpReply s'.own.msg).1)
    (fun _ _ _ => trivial) (by decide +kernel)
  simp only [Bool.and_eq_true, Bool.not_eq_true', decide_eq_false_iff_not, bne_iff_ne] at hs
  exact ⟨s, hr, hs.1, fun hright => hs.2 hright.get⟩

end PubNub
