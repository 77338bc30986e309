import PubNubCore.Lib.Machine
import PubNubCore.Network.Pal

/-!
# What is read is what was received

Line reads and length-limited reads take turns on one receive buffer.  Whatever `recv` delivers
goes into the buffer behind what has been taken, a read takes its bytes from the front, and what
it leaves is moved to the front when the next read starts.  This file shows that nothing gets
lost on the way: between two sends, the bytes with which the reads have ended, followed by the
bytes which still wait in the buffer, are the bytes which `recv` has delivered.

A call of the platform layer is a step of a machine here, and `Reader` adds to the platform layer
the ledger that the statement is about.  Two things have to be told apart in it.  While a piece of
a request is on its way `ptr` is not in the receive buffer; and a read which ends because `recv`
has failed takes its bytes, too, but hands them to nobody.
-/

namespace PubNub

namespace Pal

variable {p p' : Pal} {a : RecvAnswer} {rslt : PubnubRes}

/-! ## One call -/

/-- A call that reads: the bytes `d` come out of the socket into the window, and some bytes of
    the window are taken. -/
structure Reads (p p' : Pal) (d : Bytes) : Prop where
  tiled : p'.buf.Tiled
  stream : p'.buf.taken ++ p'.buf.unread = p.buf.taken ++ p.buf.unread ++ d
  incoming : p.incoming = d ++ p'.incoming
  sockState : p'.sockState = p.sockState ∨ p'.sockState = .none

lemma incoming_deliver (p : Pal) (n : Nat) : (p.deliver n).incoming = p.incoming.drop n := by
  rw [deliver, incoming, incoming]
  cases p.socket with
  | none => exact List.drop_nil.symm
  | some s => rfl

/-- A call that only takes bytes of the window. -/
lemma Reads.of_advance {k : Nat} (ht : p.buf.Tiled) (hk : k ≤ p.buf.unreadlen)
    (hbuf : p'.buf = p.buf.advance k) (hsocket : p'.socket = p.socket)
    (hs : p'.sockState = p.sockState ∨ p'.sockState = .none) : Reads p p' [] where
  tiled := hbuf ▸ ReadWindow.tiled_advance ht hk
  stream := by
    rw [hbuf, List.append_nil]
    exact ReadWindow.taken_append_unread_advance hk
  incoming := by
    rw [Pal.incoming, Pal.incoming, hsocket]
    rfl
  sockState := hs

/-- The window has been filled from the socket, and then the call goes on. -/
lemma Reads.after_recv {d : Bytes} (ht : p.buf.Tiled) (hu : p.buf.unreadlen = 0)
    (hd : d.length ≤ p.buf.left) (hin : p.incoming.take d.length = d)
    (h : Reads { p.deliver d.length with buf := p.buf.fill d } p' []) : Reads p p' d where
  tiled := h.tiled
  stream := by
    have hempty : p.buf.unread = [] := by
      rw [ReadWindow.unread, hu, List.take_zero]
    rw [h.stream, List.append_nil, hempty, List.append_nil]
    exact congrArg₂ (· ++ ·) (ReadWindow.taken_fill ht) (ReadWindow.unread_fill ht hd)
  incoming := by
    have hrest : p'.incoming = p.incoming.drop d.length := by
      have hsame := h.incoming
      rw [List.nil_append] at hsame
      rw [← hsame, ← incoming_deliver]
      rfl
    rw [hrest]
    nth_rewrite 1 [← List.take_append_drop d.length p.incoming]
    rw [hin]
  sockState := h.sockState

lemma take_length_delivers (p : Pal) (asked : Nat) (a : RecvAnswer) :
    p.incoming.take (p.delivers asked a).length = p.delivers asked a := by
  cases a with
  | bytes n => simp [delivers, List.length_take, List.take_eq_take_iff]
  | error e => simp [delivers]

lemma length_delivers_le (p : Pal) (asked : Nat) (a : RecvAnswer) :
    (p.delivers asked a).length ≤ asked := by
  cases a with
  | bytes n =>
      simp only [delivers, List.length_take]
      omega
  | error e => simp [delivers]

/-- A `recv` that delivers nothing leaves the window alone. -/
lemma reads_handleSocketError (ht : p.buf.Tiled) (e : SocketError) :
    Reads p (p.handleSocketError e).1 [] := by
  cases e
  all_goals
    exact Reads.of_advance (k := 0) ht (Nat.zero_le _) rfl rfl (by simp [handleSocketError])

lemma reads_scanLine (ht : p.buf.Tiled) : Reads p p.scanLine.1 [] := by
  have hlen := ReadWindow.length_unread ht
  rw [scanLine]
  split
  · exact .of_advance ht (by omega) rfl rfl (.inr rfl)
  · split
    · exact .of_advance ht le_rfl rfl rfl (.inr rfl)
    · exact .of_advance ht le_rfl rfl rfl (.inl rfl)

lemma sockState_of_lineReadStatus {r : Pal × PubnubRes} (h : p.lineReadStatus a = some r) :
    p.sockState = .readLine := by
  by_contra hst
  rw [lineReadStatus, if_pos hst] at h
  cases h

/-- **Reading a line** moves bytes from the socket to the window, and loses none. -/
lemma reads_lineReadStatus (ht : p.buf.Tiled) (h : p.lineReadStatus a = some (p', rslt)) :
    ∃ d, Reads p p' d := by
  rw [lineReadStatus, if_neg (not_not.mpr (sockState_of_lineReadStatus h))] at h
  split at h
  · rename_i hu
    split at h
    · cases h
    · dsimp only at h
      split at h
      · obtain rfl : (p.handleSocketError (recvError a)).1 = p' :=
          congrArg Prod.fst (Option.some.inj h)
        exact ⟨[], reads_handleSocketError ht _⟩
      · obtain rfl := congrArg Prod.fst (Option.some.inj h)
        have hlen := p.length_delivers_le p.buf.left a
        exact ⟨_, .after_recv ht hu hlen (p.take_length_delivers _ a)
          (reads_scanLine (ReadWindow.tiled_fill ht hu hlen))⟩
  · obtain rfl := congrArg Prod.fst (Option.some.inj h)
    exact ⟨[], reads_scanLine ht⟩

lemma reads_tookBytes {n : Nat} (ht : p.buf.Tiled) (hn : n ≤ p.buf.unreadlen) :
    Reads p (p.tookBytes n).1 [] := by
  rw [tookBytes]
  dsimp only
  split
  · exact .of_advance ht hn rfl rfl (.inr rfl)
  · exact .of_advance ht hn rfl rfl (.inl rfl)

lemma sockState_of_readStatus {r : Pal × PubnubRes} (h : p.readStatus a = some r) :
    p.sockState = .read := by
  by_contra hst
  rw [readStatus, if_pos hst] at h
  cases h

/-- **Reading a number of bytes** moves bytes from the socket to the window, and loses none. -/
lemma reads_readStatus (ht : p.buf.Tiled) (h : p.readStatus a = some (p', rslt)) :
    ∃ d, Reads p p' d := by
  rw [readStatus, if_neg (not_not.mpr (sockState_of_readStatus h))] at h
  split at h
  · rename_i hu
    dsimp only at h
    split at h
    · cases h
    · split at h
      · obtain rfl : (p.handleSocketError (recvError a)).1 = p' :=
          congrArg Prod.fst (Option.some.inj h)
        exact ⟨[], reads_handleSocketError ht _⟩
      · obtain rfl := congrArg Prod.fst (Option.some.inj h)
        have hlen := p.length_delivers_le (min p.len p.buf.left) a
        have hleft : (p.delivers (min p.len p.buf.left) a).length ≤ p.buf.left := by omega
        exact ⟨_, .after_recv ht hu hleft (p.take_length_delivers _ a)
          (reads_tookBytes (ReadWindow.tiled_fill ht hu hleft) le_rfl)⟩
  · obtain rfl := congrArg Prod.fst (Option.some.inj h)
    exact ⟨[], reads_tookBytes ht (min_le_left _ _)⟩

/-- A read starts with the unread bytes at the front of the buffer. -/
structure Starts (p p' : Pal) : Prop where
  idle : p.sockState = .none
  reading : p'.sockState = .readLine ∨ p'.sockState = .read
  tiled : p'.buf.Tiled
  taken : p'.buf.taken = []
  unread : p'.buf.unread = p.buf.unread
  socket : p'.socket = p.socket

lemma starts_startReadLine (ht : p.buf.Tiled) (h : p.startReadLine = some p') : Starts p p' := by
  rw [startReadLine] at h
  simp only [Option.ite_none_right_eq_some, Option.some.injEq] at h
  obtain ⟨⟨hst, _⟩, rfl⟩ := h
  exact ⟨hst, .inl rfl, ReadWindow.tiled_rewind ht, rfl, ReadWindow.unread_rewind ht, rfl⟩

lemma starts_startRead {n : Nat} (ht : p.buf.Tiled) (h : p.startRead n = some p') :
    Starts p p' := by
  rw [startRead] at h
  simp only [Option.ite_none_right_eq_some, Option.some.injEq] at h
  obtain ⟨⟨hst, _⟩, rfl⟩ := h
  exact ⟨hst, .inr rfl, ReadWindow.tiled_rewind ht, rfl, ReadWindow.unread_rewind ht, rfl⟩

/-! ## Sending in between -/

/-- A call that sends: it goes on sending, with the buffer as it was, or it has ended and the
    receive buffer is empty. -/
inductive Sends (p p' : Pal) : Prop
  | goesOn (hs : p'.sockState = .sendingData) (hb : p'.buf = p.buf)
  | ended (hs : p'.sockState = .none)
      (hb : p'.buf = { p.buf with ptr := 0, unreadlen := 0 })

/-- While a piece is being sent, `pbpal_send_status` sends more of it. -/
lemma sends_sendStatus {b : SendAnswer} {r : SendResult} (hst : p.sockState = .sendingData)
    (h : p.sendStatus b = some (p', r)) : Sends p p' := by
  rw [sendStatus.eq_def] at h
  split at h
  · obtain rfl := congrArg Prod.fst (Option.some.inj h)
    exact .goesOn hst rfl
  · split at h
    · cases h
    · split at h
      · obtain rfl := congrArg Prod.fst (Option.some.inj h)
        exact .ended rfl rfl
      · split at h
        · obtain rfl := congrArg Prod.fst (Option.some.inj h)
          exact .ended rfl rfl
        · obtain rfl := congrArg Prod.fst (Option.some.inj h)
          exact .goesOn hst rfl
      · obtain rfl := congrArg Prod.fst (Option.some.inj h)
        exact .goesOn hst rfl
      · obtain rfl := congrArg Prod.fst (Option.some.inj h)
        exact .ended rfl rfl

/-- When nothing is being sent, `pbpal_send_status` does nothing. -/
lemma sendStatus_of_not_sending {b : SendAnswer} {r : SendResult}
    (hst : p.sockState ≠ .sendingData) (h : p.sendStatus b = some (p', r)) : p' = p := by
  rw [sendStatus.eq_def, if_pos hst] at h
  split at h
  · exact (congrArg Prod.fst (Option.some.inj h)).symm
  · cases h

end Pal

/-! ## The ledger of the reads -/

/-- A read that has ended: the bytes it took, which are the `pbpal_read_len` first ones of the
    buffer, and whether they were handed to the caller. -/
structure EndedRead where
  bytes : Bytes
  handedOver : Bool
  deriving DecidableEq, Repr

/-- The platform layer on an open connection, with what has been received since the latest send
    began and the reads that have ended since. -/
structure Reader where
  pal : Pal
  received : Bytes
  ended : List EndedRead

/-- The calls of the platform layer, with the answers of the socket, and what the peer does. -/
inductive PalCall
  | send (data : Bytes) (a : SendAnswer)
  | sendStatus (a : SendAnswer)
  | startReadLine
  | lineReadStatus (a : RecvAnswer)
  | startRead (n : Nat)
  | readStatus (a : RecvAnswer)
  | arrive (bytes : Bytes)
  deriving DecidableEq, Repr

namespace Pal

/-- The bytes that have been received and belong to no ended read. -/
def pending (p : Pal) : Bytes :=
  match p.sockState with
  | .readLine | .read => p.buf.taken ++ p.buf.unread
  | .none | .sendingData => p.buf.unread

end Pal

namespace Reader

variable (s : Reader)

/-- A call that reads has returned.  The bytes of a line that does not fit into the buffer are
    handed over as well. -/
def afterRead (r : Pal × PubnubRes) : Reader where
  pal := r.1
  received := s.received ++
    s.pal.incoming.take (s.pal.incoming.length - r.1.incoming.length)
  ended :=
    if r.1.sockState = .none then
      s.ended ++ [⟨r.1.buf.taken, r.2 == .ok || r.2 == .txBuffTooSmall⟩]
    else s.ended

/-- One call. -/
def step : PalCall → Option Reader
  | .send data a => (s.pal.send data a).map fun r => { pal := r.1, received := [], ended := [] }
  | .sendStatus a => (s.pal.sendStatus a).map fun r => { s with pal := r.1 }
  | .startReadLine => s.pal.startReadLine.map fun pal => { s with pal }
  | .lineReadStatus a => (s.pal.lineReadStatus a).map s.afterRead
  | .startRead n => (s.pal.startRead n).map fun pal => { s with pal }
  | .readStatus a => (s.pal.readStatus a).map s.afterRead
  | .arrive bytes =>
      some { s with pal := { s.pal with socket := s.pal.socket.map (· ++ bytes) } }

/-- The bytes of the reads that have ended. -/
def taken : Bytes := s.ended.flatMap (·.bytes)

/-- The bytes that were handed to the caller. -/
def handedOver : Bytes := (s.ended.filter (·.handedOver)).flatMap (·.bytes)

/-- **The invariant.**  While nothing is being sent, the three parts of the buffer make up its
    size, and the bytes received are those of the ended reads and those still pending. -/
structure Sound : Prop where
  reading : s.pal.sockState ≠ .sendingData →
    s.pal.buf.Tiled ∧ s.taken ++ s.pal.pending = s.received
  sending : s.pal.sockState = .sendingData →
    s.pal.buf.left = pubnubBufMaxlen ∧ s.ended = [] ∧ s.received = []

end Reader

/-- The calls of the platform layer on a connection that has just been opened. -/
def readerMachine : Machine Reader PalCall where
  init := { pal := { Pal.init with socket := some [] }, received := [], ended := [] }
  step := Reader.step

namespace Reader

variable {s s' : Reader}

lemma sound_init : readerMachine.init.Sound where
  reading := fun _ => ⟨rfl, rfl⟩
  sending := fun h => by cases h

lemma pending_of_reading {p : Pal} (h : p.sockState = .readLine ∨ p.sockState = .read) :
    p.pending = p.buf.taken ++ p.buf.unread := by
  rw [Pal.pending]
  rcases h with h | h <;> rw [h]

/-- A read goes on, or ends and moves its bytes to the ledger. -/
lemma Sound.afterRead (h : s.Sound) (hst : s.pal.sockState = .readLine ∨ s.pal.sockState = .read)
    {r : Pal × PubnubRes} {d : Bytes} (hr : Pal.Reads s.pal r.1 d) : (s.afterRead r).Sound := by
  have hnot : s.pal.sockState ≠ .sendingData := by
    rcases hst with hst | hst <;> simp [hst]
  obtain ⟨_, hledger⟩ := h.reading hnot
  rw [pending_of_reading hst] at hledger
  have hreceived : s.pal.incoming.take (s.pal.incoming.length - r.1.incoming.length) = d := by
    rw [hr.incoming, List.length_append, Nat.add_sub_cancel, List.take_left]
  have hkept : r.1.sockState ≠ .sendingData := by
    rcases hr.sockState with hs | hs
    · exact hs ▸ hnot
    · simp [hs]
  refine ⟨fun _ => ⟨hr.tiled, ?_⟩, fun hs => absurd hs hkept⟩
  have hstream : s.taken ++ (r.1.buf.taken ++ r.1.buf.unread) = s.received ++ d := by
    rw [hr.stream, ← List.append_assoc, hledger]
  simp only [Reader.afterRead, Reader.taken, hreceived]
  by_cases hend : r.1.sockState = .none
  · rw [if_pos hend, Pal.pending, hend, List.flatMap_append, List.flatMap_singleton,
      List.append_assoc]
    exact hstream
  · rw [if_neg hend, pending_of_reading]
    · exact hstream
    · exact (hr.sockState.resolve_right hend) ▸ hst

/-- A read starts where the one before has ended. -/
lemma Sound.starts (h : s.Sound) {pal : Pal} (hp : s.pal.buf.Tiled → Pal.Starts s.pal pal)
    (hidle : s.pal.sockState = .none) : { s with pal := pal }.Sound := by
  obtain ⟨ht, hledger⟩ := h.reading (by simp [hidle])
  have hstart := hp ht
  have hnot : pal.sockState ≠ .sendingData := by
    rcases hstart.reading with hs | hs <;> simp [hs]
  refine ⟨fun _ => ⟨hstart.tiled, ?_⟩, fun hs => absurd hs hnot⟩
  rw [Pal.pending, hidle] at hledger
  rw [pending_of_reading hstart.reading, hstart.taken, hstart.unread]
  exact hledger

/-- When a piece has been sent, or could not be, the receive buffer is empty. -/
lemma sound_of_sends {pal : Pal} (hleft : s.pal.buf.left = pubnubBufMaxlen)
    (h : Pal.Sends s.pal pal) : Sound { pal := pal, received := [], ended := [] } := by
  cases h with
  | goesOn hs hb =>
      refine ⟨fun hnot => absurd hs hnot, fun _ => ⟨?_, rfl, rfl⟩⟩
      rw [show pal.buf = s.pal.buf from hb]
      exact hleft
  | ended hs hb =>
      refine ⟨fun _ => ⟨?_, ?_⟩, fun hsend => absurd hsend (by simp [hs])⟩
      · show pal.buf.Tiled
        rw [hb, ReadWindow.Tiled]
        dsimp only
        rw [hleft]
        rfl
      · show pal.pending = []
        rw [Pal.pending, hs, hb]
        rfl

/-- **One call.** -/
lemma sound_step {c : PalCall} (h : s.Sound) (hs : s.step c = some s') : s'.Sound := by
  cases c with
  | send data a =>
      obtain ⟨r, hr, rfl⟩ := Option.map_eq_some_iff.mp hs
      rw [Pal.send, Option.ite_none_right_eq_some] at hr
      exact sound_of_sends (s := { s with pal := _ }) rfl (Pal.sends_sendStatus rfl hr.2)
  | sendStatus a =>
      obtain ⟨r, hr, rfl⟩ := Option.map_eq_some_iff.mp hs
      by_cases hst : s.pal.sockState = .sendingData
      · obtain ⟨hleft, hended, hreceived⟩ := h.sending hst
        rw [hended, hreceived]
        exact sound_of_sends hleft (Pal.sends_sendStatus hst hr)
      · have hsame : r.1 = s.pal := Pal.sendStatus_of_not_sending hst hr
        rw [hsame]
        exact h
  | startReadLine =>
      obtain ⟨pal, hp, rfl⟩ := Option.map_eq_some_iff.mp hs
      have hidle : s.pal.sockState = .none := by
        rw [Pal.startReadLine, Option.ite_none_right_eq_some] at hp
        exact hp.1.1
      exact h.starts (fun ht => Pal.starts_startReadLine ht hp) hidle
  | startRead n =>
      obtain ⟨pal, hp, rfl⟩ := Option.map_eq_some_iff.mp hs
      have hidle : s.pal.sockState = .none := by
        rw [Pal.startRead, Option.ite_none_right_eq_some] at hp
        exact hp.1.1
      exact h.starts (fun ht => Pal.starts_startRead ht hp) hidle
  | lineReadStatus a =>
      obtain ⟨r, hr, rfl⟩ := Option.map_eq_some_iff.mp hs
      have hst := Pal.sockState_of_lineReadStatus hr
      obtain ⟨d, hd⟩ := Pal.reads_lineReadStatus (h.reading (by simp [hst])).1 hr
      exact h.afterRead (.inl hst) hd
  | readStatus a =>
      obtain ⟨r, hr, rfl⟩ := Option.map_eq_some_iff.mp hs
      have hst := Pal.sockState_of_readStatus hr
      obtain ⟨d, hd⟩ := Pal.reads_readStatus (h.reading (by simp [hst])).1 hr
      exact h.afterRead (.inr hst) hd
  | arrive bytes =>
      obtain rfl := Option.some.inj hs
      exact ⟨h.reading, h.sending⟩

/-- **Nothing that was received gets lost.**  In every run, while nothing is being sent, the
    three parts of the receive buffer make up its size; and since the latest send, the bytes of
    the reads that have ended, in their order, followed by what the buffer still holds, are the
    bytes which `recv` has delivered.  They are the bytes that were handed to the caller, unless
    a read has failed in between. -/
theorem received_in_order (s : Reader) (hr : readerMachine.Reachable Machine.anyStep s)
    (hs : s.pal.sockState ≠ .sendingData) :
    s.pal.buf.ptr + s.pal.buf.unreadlen + s.pal.buf.left = pubnubBufMaxlen ∧
      s.taken ++ s.pal.pending = s.received ∧
      ((∀ e ∈ s.ended, e.handedOver = true) → s.handedOver = s.taken) := by
  have hsound : s.Sound := hr.invariant sound_init fun _ _ _ h _ hs => sound_step h hs
  obtain ⟨ht, hledger⟩ := hsound.reading hs
  refine ⟨ht, hledger, fun hall => ?_⟩
  rw [handedOver, List.filter_eq_self.mpr hall]
  rfl

/-- A line and a half arrive, and the rest of the second line; then six bytes are to be read,
    the fifth of which has arrived. -/
def twoLinesRun : List PalCall :=
  [.arrive (ascii "one\r\ntw"), .startReadLine, .lineReadStatus (.bytes 7), .startReadLine,
    .lineReadStatus (.error .wouldBlock), .arrive (ascii "o\r\n[1,2"), .lineReadStatus (.bytes 7),
    .startRead 6, .readStatus (.bytes 1), .arrive (ascii ",3]"), .readStatus (.bytes 1)]

theorem received_in_order_twoLines :
    ∃ s, readerMachine.Reachable Machine.anyStep s ∧ s.ended.length = 2 ∧
      s.pal.buf.ptr + s.pal.buf.unreadlen + s.pal.buf.left = pubnubBufMaxlen ∧
      s.taken ++ s.pal.pending = s.received ∧
      ((∀ e ∈ s.ended, e.handedOver = true) → s.handedOver = s.taken) := by
  obtain ⟨s, hr, hs⟩ := Machine.exists_reachable_of_replay readerMachine (fun _ _ => true)
    twoLinesRun (fun s => s.ended.length == 2 && s.pal.sockState == .read)
    (fun _ _ _ => trivial) (by decide +kernel)
  rw [Bool.and_eq_true] at hs
  have hread : s.pal.sockState = .read := eq_of_beq hs.2
  exact ⟨s, hr, eq_of_beq hs.1, received_in_order s hr (by simp [hread])⟩

/-- A byte is left unread when the next piece is sent, and not all of the piece is accepted. -/
def partlySentRun : List PalCall :=
  [.arrive (ascii "a\nb"), .startReadLine, .lineReadStatus (.bytes 3),
    .send (ascii "GET ") (.accepted 2)]

/-- The connection fails in the middle of a line, and another line is read nevertheless. -/
def failedLineRun : List PalCall :=
  [.arrive (ascii "ab"), .startReadLine, .lineReadStatus (.bytes 2),
    .lineReadStatus (.error .timedOut), .arrive (ascii "c\n"), .startReadLine,
    .lineReadStatus (.bytes 2)]

/-- In the middle of a send the parts of the buffer do not make up its size, and a read that has
    failed takes bytes which were handed to nobody. -/
theorem not_always_received_in_order :
    (¬ ∀ s, readerMachine.Reachable Machine.anyStep s →
      s.pal.buf.ptr + s.pal.buf.unreadlen + s.pal.buf.left = pubnubBufMaxlen) ∧
    (¬ ∀ s, readerMachine.Reachable Machine.anyStep s → s.pal.sockState ≠ .sendingData →
      s.handedOver ++ s.pal.pending = s.received) := by
  constructor
  · intro h
    obtain ⟨s, hr, hs⟩ := Machine.exists_reachable_of_replay readerMachine (fun _ _ => true)
      partlySentRun
      (fun s => s.pal.buf.ptr + s.pal.buf.unreadlen + s.pal.buf.left != pubnubBufMaxlen)
      (fun _ _ _ => trivial) (by decide +kernel)
    exact absurd (h s hr) (by simpa using hs)
  · intro h
    obtain ⟨s, hr, hs⟩ := Machine.exists_reachable_of_replay readerMachine (fun _ _ => true)
      failedLineRun
      (fun s => s.pal.sockState == .none && s.handedOver ++ s.pal.pending != s.received)
      (fun _ _ _ => trivial) (by decide +kernel)
    rw [Bool.and_eq_true] at hs
    have hnone : s.pal.sockState = .none := eq_of_beq hs.1
    exact absurd (h s hr (by simp [hnone])) (by simpa using hs.2)

end Reader

end PubNub
