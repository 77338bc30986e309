import PubNubCore.Lib.Lines
import PubNubCore.Network.ProxyHeader
import PubNubCore.Network.Reading
import PubNubCore.Network.ReplyBuffer

/-!
# The headers of a response

Between the status line and the body the state machine reads one line after the other, looks at the
beginning of `core.http_buf` for the names it knows, and takes a line of at most two characters for
the empty line that ends the headers.  It is handed no text but that buffer, in which the line is
followed by what has been received behind it and by what is left of earlier lines.

So a line is only seen as it is when it fits into the buffer: of a longer one
`pbpal_line_read_status` delivers the first `PUBNUB_BUF_MAXLEN` bytes as a line too long, and what
follows them is read as the next line.  `HeaderRun.headers_right` says that this, the one-character
line and the values which are looked for behind the end of their line are all that goes wrong: as
long as none of them is met, the texts read are the lines of the response, the headers are those of
these texts, and the first empty line ends them.
-/

namespace PubNub

/-! ## What is recognised -/

/-- What is made of a header line: the numbers as they are stored, the parameters of the proxy's
    challenge as they are read. -/
inductive Header
  | chunked
  | contentLength (len : Nat)
  | retryAfter (delay : Nat)
  | close
  | gzip
  | challenge (c : Challenge)
  | folded (read : List (Bytes × Option Bytes))
  | other
  deriving DecidableEq, Repr

/-- A header of a proxy, or the continuation of one. -/
def Header.ofProxy : Header → Bool
  | .challenge _ | .folded _ => true
  | _ => false

/-- The line begins with a blank. -/
def startsBlank (line : Bytes) : Bool := line.head?.any isBlank

/-- What `pbproxy_handle_http_header` makes of a line.  Lines that go on with a header are only
    supported for Digest. -/
def recogniseProxyHeader (scheme : AuthScheme) (line : Bytes) : Header :=
  if startsBlank line then
    if scheme = .digest then .folded (digestParameters (line.drop 1)) else .other
  else if startsWith line (ascii "Proxy-Authenticate: ") then
    .challenge (readChallenge scheme (line.drop 20))
  else .other

/-- What `PBS_RX_HEADER_LINE` makes of a line that is not blank. -/
def recogniseHeader (scheme : AuthScheme) (line : Bytes) : Header :=
  if startsWithCase line (ascii "Transfer-Encoding: chunked") then .chunked
  else if startsWithCase line (ascii "Content-Length: ") then
    .contentLength (toUnsigned (atoi (line.drop 16)))
  else if startsWithCase line (ascii "Retry-After: ") then
    .retryAfter (toUnsigned (atoi (line.drop 13)) % 2 ^ 16)
  else if startsWithCase line (ascii "Connection: close") then .close
  else if startsWithCase line (ascii "Content-Encoding: gzip") then .gzip
  else recogniseProxyHeader scheme line

namespace Pb

variable (pb : Pb) (a : Answer)

/-- What the state machine does at a header.  The value of `Retry-After` and the encoding are not
    among the fields of the context here. -/
def applyHeader : Header → Pass
  | .chunked => { pb with httpChunked := true, state := .rxHeaders }.again
  | .contentLength len =>
      let r := pb.reallocReplyBuffer len a.alloc
      if r.2 then { r.1 with httpContentLen := len, state := .rxHeaders }.again
      else r.1.outcomeDetected a .replyTooBig .brk
  | .close => { pb with shouldClose := true, state := .rxHeaders }.again
  | .challenge _ | .folded _ =>
      match a.proxyHeader with
      | .challenge scheme sent =>
          { pb with
            proxyAuthScheme := scheme
            proxyAuthorizationSent := sent
            state := .rxHeaders }.again
      | .refused => pb.outcomeDetected a .authenticationFailed .ret
      | .ignored => { pb with state := .rxHeaders }.again
  | .retryAfter _ | .gzip | .other => { pb with state := .rxHeaders }.again

end Pb

lemma head_of_startsWith {s lit : Bytes} {c : UInt8} (h : startsWith s (c :: lit) = true) :
    s.head? = some c := by
  have htake := eq_of_beq h
  cases s with
  | nil => cases htake
  | cons x s => exact congrArg some (List.cons.inj htake).1

/-- A line about the encoding is none for the proxy. -/
lemma recogniseProxyHeader_of_gzip {s : Bytes} (scheme : AuthScheme)
    (h : startsWithCase s (ascii "Content-Encoding: gzip") = true) :
    recogniseProxyHeader scheme s = .other := by
  rw [startsWithCase_eq] at h
  have hhead := head_of_startsWith h
  cases s with
  | nil => cases hhead
  | cons c s =>
      have hlow : toLower c = 99 := Option.some.inj hhead
      have hblank : isBlank c = false := by
        rw [← Bool.not_eq_true]
        intro hb
        rcases Bool.or_eq_true _ _ ▸ hb with hc | hc
        all_goals
          rw [eq_of_beq hc] at hlow
          exact absurd hlow (by decide)
      have hproxy : startsWith (c :: s) (ascii "Proxy-Authenticate: ") = false := by
        rw [← Bool.not_eq_true]
        intro hp
        rw [Option.some.inj (head_of_startsWith hp)] at hlow
        exact absurd hlow (by decide)
      rw [recogniseProxyHeader, startsBlank, List.head?_cons, Option.any_some, hblank, hproxy]
      rfl

lemma recogniseProxyHeader_cases (scheme : AuthScheme) (line : Bytes) :
    (recogniseProxyHeader scheme line).ofProxy = true ∨
      recogniseProxyHeader scheme line = .other := by
  rw [recogniseProxyHeader]
  split
  · split
    · exact .inl rfl
    · exact .inr rfl
  · split
    · exact .inl rfl
    · exact .inr rfl

namespace Pb

variable {pb : Pb} {a : Answer}

/-- Only what is recognised as a header of the proxy is handled as one. -/
lemma pbproxyHandleHttpHeader_eq :
    pb.pbproxyHandleHttpHeader a =
      if (recogniseProxyHeader pb.proxyAuthScheme pb.httpBuf).ofProxy then
        match a.proxyHeader with
        | .challenge scheme sent =>
            some { pb with proxyAuthScheme := scheme, proxyAuthorizationSent := sent }
        | .refused => none
        | .ignored => some pb
      else some pb := by
  have hblank : (pb.httpBuf.head? == some 32 || pb.httpBuf.head? == some 9) =
      startsBlank pb.httpBuf := by
    rw [startsBlank]
    cases pb.httpBuf with
    | nil => rfl
    | cons c s => rfl
  have hknown : (startsWith pb.httpBuf (ascii "Proxy-Authenticate: ") ||
      startsBlank pb.httpBuf && pb.proxyAuthScheme == .digest) =
      (recogniseProxyHeader pb.proxyAuthScheme pb.httpBuf).ofProxy := by
    rw [recogniseProxyHeader]
    cases hb : startsBlank pb.httpBuf with
    | false =>
        cases startsWith pb.httpBuf (ascii "Proxy-Authenticate: ") with
        | false => rfl
        | true => rfl
    | true =>
        have hp : startsWith pb.httpBuf (ascii "Proxy-Authenticate: ") = false := by
          rw [← Bool.not_eq_true]
          intro hp
          rw [startsBlank, head_of_startsWith hp] at hb
          exact absurd hb (by decide)
        rw [hp]
        by_cases hd : pb.proxyAuthScheme = .digest
        · rw [if_pos rfl, if_pos hd, hd]
          rfl
        · rw [if_pos rfl, if_neg hd, beq_false_of_ne hd]
          rfl
  rw [pbproxyHandleHttpHeader, hblank, hknown]
  cases (recogniseProxyHeader pb.proxyAuthScheme pb.httpBuf).ofProxy with
  | false => rfl
  | true => cases a.proxyHeader <;> rfl

/-- **A header line does what is recognised in it.** -/
theorem headerLine_eq_applyHeader :
    pb.headerLine a = pb.applyHeader a (recogniseHeader pb.proxyAuthScheme pb.httpBuf) := by
  rw [headerLine, recogniseHeader]
  by_cases hchunked : startsWithCase pb.httpBuf (ascii "Transfer-Encoding: chunked") = true
  · rw [if_pos hchunked, if_pos hchunked]
    rfl
  rw [if_neg hchunked, if_neg hchunked]
  by_cases hlength : startsWithCase pb.httpBuf (ascii "Content-Length: ") = true
  · rw [if_pos hlength, if_pos hlength]
    rfl
  rw [if_neg hlength, if_neg hlength]
  by_cases hretry : startsWithCase pb.httpBuf (ascii "Retry-After: ") = true
  · rw [if_pos hretry, if_pos hretry]
    rfl
  rw [if_neg hretry, if_neg hretry]
  by_cases hclose : startsWithCase pb.httpBuf (ascii "Connection: close") = true
  · rw [if_pos hclose, if_pos hclose]
    rfl
  rw [if_neg hclose, if_neg hclose, pbproxyHandleHttpHeader_eq]
  by_cases hgzip : startsWithCase pb.httpBuf (ascii "Content-Encoding: gzip") = true
  · rw [if_pos hgzip, recogniseProxyHeader_of_gzip _ hgzip]
    rfl
  rw [if_neg hgzip]
  rcases recogniseProxyHeader_cases pb.proxyAuthScheme pb.httpBuf with hproxy | hother
  · rw [if_pos hproxy]
    cases hline : recogniseProxyHeader pb.proxyAuthScheme pb.httpBuf with
    | challenge c | folded read => 
        rw [applyHeader]
        cases a.proxyHeader <;> rfl
    | _ => 
        rw [hline] at hproxy
        cases hproxy
  · rw [hother]
    rfl

end Pb

/-! ## A line that is read alone -/

/-- The empty line, with which the headers end. -/
def isEmptyLine (line : Bytes) : Bool := line == [10] || line == [13, 10]

/-- A header which is a number has a value, and what is read of a header of the proxy does not depend
    on what is behind its line. -/
def valueReadsAlone (scheme : AuthScheme) (line behind : Bytes) : Bool :=
  (!startsWithCase line (ascii "Content-Length: ") || (line.drop 16).any (!isSpace ·)) &&
    (!startsWithCase line (ascii "Retry-After: ") || (line.drop 13).any (!isSpace ·)) &&
      if startsBlank line then scheme ≠ .digest || digestReadsAlone (line.drop 1) behind
      else !startsWith line (ascii "Proxy-Authenticate: ") ||
        challengeReadsAlone scheme (line.drop 20) behind

section ReadsAlone

variable {scheme : AuthScheme} {line behind : Bytes}

lemma recogniseProxyHeader_append (hl : line.getLast? = some 10)
    (h : (if startsBlank line then scheme ≠ .digest || digestReadsAlone (line.drop 1) behind
      else !startsWith line (ascii "Proxy-Authenticate: ") ||
        challengeReadsAlone scheme (line.drop 20) behind : Bool) = true) :
    recogniseProxyHeader scheme (line ++ behind) = recogniseProxyHeader scheme line := by
  have hmem : (10 : UInt8) ∈ line := List.mem_of_getLast? hl
  have hne : line ≠ [] := List.ne_nil_of_mem hmem
  have hlast : ∀ k, line.drop k ≠ [] → (line.drop k).getLast? = some 10 := by
    intro k hk
    rw [getLast?_of_suffix (List.drop_suffix k line) hk, hl]
  have hlit : (10 : UInt8) ∉ ascii "Proxy-Authenticate: " := by decide
  rw [recogniseProxyHeader, recogniseProxyHeader, startsBlank,
    List.head?_append_of_ne_nil _ hne, ← startsBlank, startsWith_append hmem hlit]
  by_cases hblank : startsBlank line = true
  · rw [if_pos hblank] at h
    rw [if_pos hblank, if_pos hblank]
    by_cases hd : scheme = .digest
    · rw [hd] at h
      rw [if_pos hd, if_pos hd, List.drop_append_of_le_length (List.length_pos_of_ne_nil hne),
        digestParameters_append _ h]
      by_cases hnil : line.drop 1 = []
      · simp [hnil]
      · rw [hlast 1 hnil]
        decide
    · rw [if_neg hd, if_neg hd]
  · rw [if_neg hblank] at h
    rw [if_neg hblank, if_neg hblank]
    by_cases hp : startsWith line (ascii "Proxy-Authenticate: ") = true
    · rw [hp] at h
      obtain ⟨hlen, hrest⟩ := length_lt_of_startsWith hp hmem (by decide)
      rw [if_pos hp, if_pos hp,
        List.drop_append_of_le_length (show 20 ≤ line.length from hlen.le),
        readChallenge_append (hlast 20 (List.ne_nil_of_mem hrest)) h]
    · rw [if_neg hp, if_neg hp]

/-- **A line that is read alone** is recognised as what it is, whatever is behind it. -/
theorem recogniseHeader_append (hl : line.getLast? = some 10)
    (h : valueReadsAlone scheme line behind = true) :
    recogniseHeader scheme (line ++ behind) = recogniseHeader scheme line := by
  have hmem : (10 : UInt8) ∈ line := List.mem_of_getLast? hl
  have hsame : ∀ lit : Bytes, toLower 10 ∉ lit.map toLower →
      startsWithCase (line ++ behind) lit = startsWithCase line lit :=
    fun lit hlit => startsWithCase_append hmem hlit behind
  have hnumber : ∀ lit : Bytes, toLower 10 ∉ lit.map toLower → startsWithCase line lit = true →
      (line.drop lit.length).any (!isSpace ·) = true →
      atoi ((line ++ behind).drop lit.length) = atoi (line.drop lit.length) := by
    intro lit hlit hline hvalue
    rw [startsWithCase_eq] at hline
    have hlen := (length_lt_of_startsWith hline (List.mem_map_of_mem hmem) hlit).1
    rw [List.length_map, List.length_map] at hlen
    rw [List.drop_append_of_le_length hlen.le, atoi_append hvalue]
    rw [getLast?_of_suffix (List.drop_suffix _ line) (by
      rw [ne_eq, List.drop_eq_nil_iff]
      omega), hl]
  rw [valueReadsAlone, Bool.and_eq_true, Bool.and_eq_true] at h
  obtain ⟨⟨hlength, hretry⟩, hproxy⟩ := h
  rw [recogniseHeader, recogniseHeader, hsame _ (by decide), hsame _ (by decide),
    hsame _ (by decide), hsame _ (by decide), hsame _ (by decide),
    recogniseProxyHeader_append hl hproxy]
  by_cases hchunked : startsWithCase line (ascii "Transfer-Encoding: chunked") = true
  · rw [if_pos hchunked, if_pos hchunked]
  rw [if_neg hchunked, if_neg hchunked]
  by_cases hc : startsWithCase line (ascii "Content-Length: ") = true
  · rw [hc, Bool.not_true, Bool.false_or] at hlength
    rw [if_pos hc, if_pos hc]
    exact congrArg (fun z => Header.contentLength (toUnsigned z))
      (hnumber (ascii "Content-Length: ") (by decide) hc hlength)
  rw [if_neg hc, if_neg hc]
  by_cases hr : startsWithCase line (ascii "Retry-After: ") = true
  · rw [hr, Bool.not_true, Bool.false_or] at hretry
    rw [if_pos hr, if_pos hr]
    exact congrArg (fun z => Header.retryAfter (toUnsigned z % 2 ^ 16))
      (hnumber (ascii "Retry-After: ") (by decide) hr hretry)
  rw [if_neg hr, if_neg hr]

end ReadsAlone

/-! ## One read of a line -/

/-- The search for the end of a line: it is found, or there is none. -/
lemma takeWhile_line (s : Bytes) :
    (∃ rest, s = s.takeWhile (· != 10) ++ 10 :: rest) ∨
      s.takeWhile (· != 10) = s ∧ 10 ∉ s := by
  have hsplit := List.takeWhile_append_dropWhile (p := (· != 10)) (l := s)
  cases hd : s.dropWhile (· != 10) with
  | nil =>
      right
      rw [hd, List.append_nil] at hsplit
      refine ⟨hsplit, fun hmem => ?_⟩
      exact absurd (List.dropWhile_eq_nil_iff.mp hd 10 hmem) (by decide)
  | cons c rest =>
      left
      have hc := List.head?_dropWhile_not (· != 10) s
      rw [hd] at hc hsplit
      have hc : c = 10 := by simpa using hc
      rw [hc] at hsplit
      exact ⟨rest, hsplit.symm⟩

lemma not_mem_takeWhile_line (s : Bytes) : 10 ∉ s.takeWhile (· != 10) := fun h => by
  simpa using List.mem_takeWhile_imp h

namespace ReadWindow

/-- The memory begins with what has been taken and what has not been read yet. -/
lemma exists_mem_eq {n : Nat} (w : ReadWindow UInt8 n) :
    ∃ stale, w.mem = w.taken ++ w.unread ++ stale := by
  refine ⟨(w.mem.drop w.ptr).drop w.unreadlen, ?_⟩
  rw [List.append_assoc, unread, List.take_append_drop]
  exact (List.take_append_drop w.ptr w.mem).symm

end ReadWindow

namespace Pal

variable {p p' : Pal} {a : RecvAnswer} {rslt : PubnubRes}

/-- The receive buffer of a line read, once `recv` has delivered. -/
def lineWindow (p : Pal) (a : RecvAnswer) : HttpBuf :=
  if p.buf.unreadlen = 0 then p.buf.fill (p.delivers p.buf.left a) else p.buf

/-- How a call of `pbpal_line_read_status` ends, when there is no end of a line in what the reads
    before have taken. -/
inductive LineRead (p' : Pal) (w : HttpBuf) : PubnubRes → Prop
  | ended (line : Bytes) (htaken : p'.buf.taken = line ++ [10]) (hline : 10 ∉ line)
      (hmem : p'.buf.mem = w.mem) (hs : p'.sockState = .none)
      (hheld : p'.buf.taken ++ p'.buf.unread = w.taken ++ w.unread) : LineRead p' w .ok
  | tooLong (hno : 10 ∉ w.taken ++ w.unread)
      (hlen : (w.taken ++ w.unread).length = pubnubBufMaxlen) : LineRead p' w .txBuffTooSmall
  | goesOn (hno : 10 ∉ p'.buf.taken) (hs : p'.sockState = .readLine) : LineRead p' w .inProgress
  | failed {rslt : PubnubRes} (hok : rslt ≠ .ok) (hsmall : rslt ≠ .txBuffTooSmall)
      (hgo : rslt ≠ .inProgress) : LineRead p' w rslt

/-- A `recv` that delivers nothing is tried again, or ends the read. -/
lemma lineRead_handleSocketError (w : HttpBuf) (hst : p.sockState = .readLine)
    (hno : 10 ∉ p.buf.taken) (e : SocketError) :
    LineRead (p.handleSocketError e).1 w (p.handleSocketError e).2 := by
  cases e with
  | wouldBlock => exact .goesOn hno hst
  | timedOut =>
      simp only [handleSocketError, hst]
      exact .failed (by decide) (by decide) (by decide)
  | blockedTooLong | closed | other =>
      simp only [handleSocketError]
      exact .failed (by decide) (by decide) (by decide)

lemma lineRead_scanLine (ht : p.buf.Tiled) (hst : p.sockState = .readLine)
    (hno : 10 ∉ p.buf.taken) : LineRead p.scanLine.1 p.buf p.scanLine.2 := by
  have hlen := ReadWindow.length_unread ht
  have hheld : ∀ k ≤ p.buf.unreadlen,
      (p.buf.advance k).taken ++ (p.buf.advance k).unread = p.buf.taken ++ p.buf.unread :=
    fun k hk => ReadWindow.taken_append_unread_advance hk
  rw [scanLine]
  rcases takeWhile_line p.buf.unread with ⟨rest, hrest⟩ | ⟨hall, hnone⟩
  · have hcount := congrArg List.length hrest
    rw [List.length_append, List.length_cons] at hcount
    rw [if_pos (by omega)]
    have htake : p.buf.unread.take ((p.buf.unread.takeWhile (· != 10)).length + 1) =
        p.buf.unread.takeWhile (· != 10) ++ [10] := by
      generalize p.buf.unread.takeWhile (· != 10) = line at hrest
      rw [hrest, List.take_length_add_append]
      rfl
    refine .ended (p.buf.taken ++ p.buf.unread.takeWhile (· != 10)) ?_ ?_ rfl rfl
      (hheld _ (by omega))
    · rw [ReadWindow.taken_advance (by omega), htake, List.append_assoc]
    · rw [List.mem_append, not_or]
      exact ⟨hno, not_mem_takeWhile_line _⟩
  · rw [hall, if_neg (Nat.lt_irrefl _)]
    have hno' : (10 : UInt8) ∉ p.buf.taken ++ p.buf.unread := by
      rw [List.mem_append, not_or]
      exact ⟨hno, hnone⟩
    split
    · rename_i hleft
      refine .tooLong hno' ?_
      have htaken := ReadWindow.length_taken ht
      have htiled : p.buf.ptr + p.buf.unreadlen + p.buf.left = pubnubBufMaxlen := ht
      rw [List.length_append]
      omega
    · refine .goesOn ?_ hst
      show 10 ∉ (p.buf.advance p.buf.unreadlen).taken
      rwa [ReadWindow.taken_advance le_rfl, ← hlen, List.take_length]

/-- **Reading a line.** -/
lemma lineRead_lineReadStatus (ht : p.buf.Tiled) (hno : 10 ∉ p.buf.taken)
    (h : p.lineReadStatus a = some (p', rslt)) : LineRead p' (p.lineWindow a) rslt := by
  have hst := sockState_of_lineReadStatus h
  rw [lineReadStatus, if_neg (not_not.mpr hst)] at h
  rw [lineWindow]
  split at h
  · rename_i hu
    rw [if_pos hu]
    split at h
    · cases h
    · dsimp only at h
      split at h
      · obtain ⟨rfl, rfl⟩ := Prod.mk.inj (Option.some.inj h)
        exact lineRead_handleSocketError _ hst hno (recvError a)
      · have hfill := ReadWindow.tiled_fill ht hu (p.length_delivers_le p.buf.left a)
        have hscan := lineRead_scanLine
          (p := { p.deliver (p.delivers p.buf.left a).length with
            buf := p.buf.fill (p.delivers p.buf.left a) }) hfill hst
          (by rw [ReadWindow.taken_fill ht]; exact hno)
        rwa [Option.some.inj h] at hscan
  · rename_i hu
    rw [if_neg hu]
    have hscan := lineRead_scanLine ht hst hno
    rwa [Option.some.inj h] at hscan

end Pal

/-! ## The ledger of the header lines -/

/-- A line that has been read, with the scheme of authentication at that time. -/
structure HeaderRead where
  text : Bytes
  scheme : AuthScheme
  header : Header
  deriving DecidableEq, Repr

/-- What has been received since the status line, the header lines that have been read since, the
    newest first, and whether the state machine has taken one for the end of the headers. -/
structure HeaderLedger where
  received : Bytes := []
  lines : List HeaderRead := []
  ended : Bool := false

/-- A context with the ledger of its latest response. -/
structure HeaderRun where
  net : Net
  ledger : HeaderLedger

namespace HeaderLedger

variable (h : HeaderLedger)

/-- The text of the lines. -/
def text : Bytes := (h.lines.map (·.text)).reverse.flatten

/-- A call of `pbpal_line_read_status` in `PBS_RX_HEADER_LINE` has returned; `delivered` is what
    `recv` has delivered in it. -/
def lineRead (scheme : AuthScheme) (delivered : Bytes) (pal : Pal) (rslt : PubnubRes) :
    HeaderLedger where
  received := h.received ++ delivered
  lines :=
    match rslt with
    | .ok =>
        let header := if pal.readLen ≤ 2 then .other else recogniseHeader scheme pal.buf.mem
        ⟨pal.buf.taken, scheme, header⟩ :: h.lines
    | .txBuffTooSmall => ⟨pal.buf.taken, scheme, .other⟩ :: h.lines
    | _ => h.lines
  ended := h.ended || (rslt == .ok && pal.readLen ≤ 2)

/-- The next line goes on with a header for the proxy. -/
def afterProxy : Bool := h.lines.head?.any (·.header.ofProxy)

/-- A read that goes on, or fails, adds no line. -/
lemma lineRead_of_not_ended (scheme : AuthScheme) (d : Bytes) (pal : Pal) {rslt : PubnubRes}
    (hok : rslt ≠ .ok) (hsmall : rslt ≠ .txBuffTooSmall) :
    h.lineRead scheme d pal rslt = { h with received := h.received ++ d } := by
  have hended : (rslt == .ok && decide (pal.readLen ≤ 2)) = false := by
    rw [beq_false_of_ne hok, Bool.false_and]
  rw [lineRead, hended, Bool.or_false]
  · exact hok
  · exact hsmall

end HeaderLedger

namespace HeaderRun

variable (s : HeaderRun)

/-- What a step adds to the ledger.  It begins anew with each status line. -/
def record (l : NetStep) (net : Net) : HeaderLedger :=
  match l, s.net.pb.state with
  | .fsm _, .rxHttpVer =>
      if net.pb.state = .rxHeaders then { received := net.pb.pal.buf.unread } else s.ledger
  | .fsm a, .rxHeaderLine =>
      match s.net.pb.pal.lineReadStatus a.recv with
      | some (pal, rslt) =>
          s.ledger.lineRead s.net.pb.proxyAuthScheme
            (s.net.pb.pal.incoming.take (s.net.pb.pal.incoming.length - pal.incoming.length))
            pal rslt
      | none => s.ledger
  | _, _ => s.ledger

def step (l : NetStep) : Option HeaderRun :=
  (s.net.step l).map fun net => { net, ledger := s.record l net }

/-- What is clear of a pass that reads a header line.  If the line ends in the buffer, it is the
    empty one or longer than that, its value is read from the line alone, and it goes on with a
    header for the proxy only behind one; otherwise the buffer is not full. -/
def lineClear (a : Answer) : Bool :=
  let w := s.net.pb.pal.lineWindow a.recv
  let held := w.taken ++ w.unread
  if held.contains 10 then
    let line := held.takeWhile (· != 10) ++ [10]
    (2 < line.length || isEmptyLine line) &&
      valueReadsAlone s.net.pb.proxyAuthScheme line (w.mem.drop line.length) &&
      (!(startsBlank line && s.net.pb.proxyAuthScheme == .digest) || s.ledger.afterProxy)
  else held.length < pubnubBufMaxlen

/-- The condition on a step. -/
def linesClear : NetStep → Bool
  | .fsm a => s.net.pb.state != .rxHeaderLine || s.lineClear a
  | _ => true

end HeaderRun

/-- The runs of a context, with the ledger. -/
def headerMachine (o : PubnubOptions) : Machine HeaderRun NetStep where
  init := { net := (netMachine o).init, ledger := {} }
  step := HeaderRun.step

/-- The states that read the header lines. -/
def PbState.readsHeaders : PbState → Bool
  | .rxHeaders | .rxHeaderLine => true
  | _ => false

/-- The states that read the body. -/
def PbState.readsBody (state : PbState) : Bool := state.receiving && !state.readsHeaders

/-- A line that goes on with a header of the proxy is behind one. -/
def Folds : List HeaderRead → Prop
  | [] => True
  | l :: ls =>
      ((∃ read, l.header = .folded read) → ls.head?.any (·.header.ofProxy) = true) ∧ Folds ls

/-- **The headers are those of the response.**  The texts read are the first lines of what has been
    received, in their order; each is recognised as what the line is; the end is the first empty
    line, up to which only header lines are read and behind which the body is. -/
structure HeadersRight (s : HeaderRun) : Prop where
  inOrder : (s.ledger.lines.map (·.text)).reverse <+: linesOf 10 s.ledger.received
  recognised : ∀ l ∈ s.ledger.lines, l.header = recogniseHeader l.scheme l.text
  folds : Folds s.ledger.lines
  notBefore : ∀ l ∈ s.ledger.lines.tail, isEmptyLine l.text = false
  atEnd : s.ledger.ended = s.ledger.lines.head?.any fun l => isEmptyLine l.text
  headers : s.net.pb.state.readsHeaders = true → s.ledger.ended = false
  body : s.net.pb.state.readsBody = true → s.ledger.ended = true

/-! ## What a pass does to the state -/

namespace Pb

variable {pb : Pb} {a : Answer} {p : Pass}

lemma readsHeaders_of_not_receiving {state : PbState} (h : state.receiving = false) :
    state.readsHeaders = false ∧ state.readsBody = false := by
  refine ⟨?_, by rw [PbState.readsBody, h, Bool.false_and]⟩
  cases state with
  | rxHeaders | rxHeaderLine => cases h
  | _ => rfl

lemma receiving_finish (pb : Pb) (a : Answer) (next : Next) :
    (pb.finish a next).pb.state.receiving = false := by
  rw [finish]
  split
  · exact (leaves_outcomeDetected _ a .httpError next).receiving
  · dsimp only
    split
    · exact (leaves_closeConnection _ a .again).receiving
    · rfl
  · rw [finishReply]
    dsimp only
    split
    · exact (leaves_outcomeDetected _ a _ next).receiving
    · exact (leaves_outcomeDetected _ a .replyTooBig next).receiving

lemma readsHeaders_endOfHeaders : (pb.endOfHeaders a).pb.state.readsHeaders = false := by
  rw [endOfHeaders]
  dsimp only
  split
  · rfl
  · split
    · split
      · exact (readsHeaders_of_not_receiving (receiving_finish _ a .brk)).1
      · exact (readsHeaders_of_not_receiving (leaves_outcomeDetected _ a .ioError .brk).receiving).1
    · rfl

/-- A header is followed by the next line, or ends the transaction. -/
lemma applyHeader_state (pb : Pb) (a : Answer) (h : Header) :
    (pb.applyHeader a h).pb.state = .rxHeaders ∧ (pb.applyHeader a h).pb.pal = pb.pal ∨
      (pb.applyHeader a h).pb.state.receiving = false := by
  cases h with
  | contentLength len =>
      rw [applyHeader]
      dsimp only
      split
      · refine .inl ⟨rfl, ?_⟩
        show (pb.reallocReplyBuffer len a.alloc).1.pal = pb.pal
        rw [reallocReplyBuffer]
        split <;> rfl
      · exact .inr (leaves_outcomeDetected _ a .replyTooBig .brk).receiving
  | challenge c | folded read =>
      rw [applyHeader]
      split
      · exact .inl ⟨rfl, rfl⟩
      · exact .inr (leaves_outcomeDetected _ a .authenticationFailed .ret).receiving
      · exact .inl ⟨rfl, rfl⟩
  | chunked | retryAfter delay | close | gzip | other => exact .inl ⟨rfl, rfl⟩

/-- Behind a status line the headers begin. -/
lemma statusLineRead_state (pb : Pb) (a : Answer) (hv : pb.state = .rxHttpVer)
    (rslt : PubnubRes) :
    (pb.statusLineRead a rslt).pb.state = .rxHeaders ∨
      (pb.statusLineRead a rslt).pb.state.receiving = false := by
  rw [statusLineRead.eq_def]
  split
  · right
    show pb.state.receiving = false
    rw [hv]
    rfl
  · split
    · exact .inl rfl
    · exact .inr (leaves_outcomeDetected _ a .ioError .brk).receiving
  · split
    · exact .inr (leaves_closeKeptAliveConnection pb a).receiving
    · exact .inr (leaves_outcomeDetected _ a _ .brk).receiving
  · split
    · exact .inr (leaves_closeKeptAliveConnection pb a).receiving
    · exact .inr (leaves_outcomeDetected _ a _ .brk).receiving
  · exact .inr (leaves_outcomeDetected _ a _ .brk).receiving

/-- The body is read to its end. -/
lemma readsHeaders_of_readsBody (hb : pb.state.readsBody = true) (hp : pb.pass a = some p) :
    p.pb.state.readsHeaders = false := by
  have hno : ∀ state : PbState, state.receiving = false → state.readsHeaders = false :=
    fun state h => (readsHeaders_of_not_receiving h).1
  cases hst : pb.state with
  | rxBody =>
      simp only [Pb.pass, hst, pbsRxBody] at hp
      split at hp
      · obtain ⟨pal, _, rfl⟩ := Option.map_eq_some_iff.mp hp
        rfl
      · obtain rfl := Option.some.inj hp
        exact hno _ (receiving_finish pb a .againIfRetry)
  | rxBodyWait =>
      simp only [Pb.pass, hst, pbsRxBodyWait] at hp
      obtain ⟨r, _, hr⟩ := Option.bind_eq_some_iff.mp hp
      rw [bodyRead.eq_def] at hr
      split at hr
      · obtain rfl := Option.some.inj hr
        show pb.state.readsHeaders = false
        rw [hst]
        rfl
      · dsimp only at hr
        split at hr
        · obtain rfl := Option.some.inj hr
          rfl
        · cases hr
      · obtain rfl := Option.some.inj hr
        exact hno _ (leaves_outcomeDetected _ a _ .brk).receiving
  | rxChunkLen =>
      simp only [Pb.pass, hst, pbsRxChunkLen] at hp
      obtain ⟨pal, _, rfl⟩ := Option.map_eq_some_iff.mp hp
      rfl
  | rxChunkLenLine =>
      simp only [Pb.pass, hst, pbsRxChunkLenLine] at hp
      obtain ⟨r, _, rfl⟩ := Option.map_eq_some_iff.mp hp
      rw [chunkLenRead.eq_def]
      split
      · show pb.state.readsHeaders = false
        rw [hst]
        rfl
      · dsimp only
        split
        · exact hno _ (receiving_finish _ a .againIfRetry)
        · split
          · rfl
          · exact hno _ (leaves_outcomeDetected _ a .replyTooBig .brk).receiving
      · exact hno _ (leaves_outcomeDetected _ a _ .brk).receiving
  | rxBodyChunk =>
      simp only [Pb.pass, hst, pbsRxBodyChunk] at hp
      split at hp
      · obtain ⟨pal, _, rfl⟩ := Option.map_eq_some_iff.mp hp
        rfl
      · obtain rfl := Option.some.inj hp
        rfl
  | rxBodyChunkWait =>
      simp only [Pb.pass, hst, pbsRxBodyChunkWait] at hp
      obtain ⟨r, _, hr⟩ := Option.bind_eq_some_iff.mp hp
      rw [chunkRead.eq_def] at hr
      split at hr
      · obtain rfl := Option.some.inj hr
        show pb.state.readsHeaders = false
        rw [hst]
        rfl
      · dsimp only at hr
        split at hr
        · obtain rfl := Option.some.inj hr
          rfl
        · cases hr
      · obtain rfl := Option.some.inj hr
        exact hno _ (leaves_outcomeDetected _ a _ .brk).receiving
  | _ => simp [hst, PbState.readsBody, PbState.receiving, PbState.readsHeaders] at hb

end Pb

/-! ## What the other steps do -/

namespace Pb

/-- The reading goes on where it was, or the response is not read any longer. -/
def KeepsReading (pb pb' : Pb) : Prop :=
  (pb'.state = pb.state ∧ pb'.pal.buf = pb.pal.buf ∧ pb'.pal.sockState = pb.pal.sockState) ∨
    pb'.state.receiving = false

variable {pb : Pb}

lemma keepsReading_requeue (room : Bool) : KeepsReading pb (pb.requeue room) := by
  rw [requeue]
  split <;> exact .inl ⟨rfl, rfl, rfl⟩

/-- A context which is queued once more waits. -/
lemma receiving_requeue (room : Bool) (h : pb.state.receiving = false) :
    (pb.requeue room).state.receiving = false := by
  rw [requeue]
  split <;> exact h

lemma receiving_stopDefault (pb : Pb) (room : Bool) :
    (pb.stopDefault room).state.receiving = false := receiving_requeue room rfl

lemma receiving_stopKeptAlive (pb : Pb) (room : Bool) :
    (pb.stopKeptAlive room).state.receiving = false := by
  rw [stopKeptAlive]
  split
  · exact receiving_requeue room rfl
  · exact receiving_stopDefault pb room

lemma receiving_stopConnecting (pb : Pb) (room dns : Bool) :
    (pb.stopConnecting room dns).state.receiving = false := by
  rw [stopConnecting]
  split
  · split
    · exact receiving_stopDefault _ room
    · split
      · exact receiving_requeue room rfl
      · exact receiving_stopDefault _ room
  · exact receiving_stopDefault pb room

/-- A transaction which is stopped is not read any longer. -/
lemma receiving_pbncStop (pb : Pb) (rslt : PubnubRes) (room dns : Bool) :
    (pb.pbncStop rslt room dns).state.receiving = false := by
  rw [pbncStop]
  split
  · exact congrArg PbState.receiving ‹_ = PbState.waitCancel›
  · exact congrArg PbState.receiving ‹_ = PbState.waitCancelClose›
  · exact congrArg PbState.receiving ‹_ = PbState.null›
  · exact receiving_stopConnecting _ room dns
  · exact receiving_stopConnecting _ room dns
  · exact receiving_stopConnecting _ room dns
  · exact congrArg PbState.receiving ‹_ = PbState.idle›
  · exact receiving_stopKeptAlive _ room
  · exact receiving_stopKeptAlive _ room
  · exact receiving_stopDefault _ room

end Pb

namespace Net

open Pb

lemma unwind_keeps (pb : Pb) (stack : List Frame) :
    (unwind pb stack).1.state = pb.state ∧ (unwind pb stack).1.pal = pb.pal := by
  induction stack generalizing pb with
  | nil => exact ⟨rfl, rfl⟩
  | cons frame rest ih =>
      cases frame with
      | fsm | user => exact ⟨rfl, rfl⟩
      | rest keptAlive next =>
          have hafter : (pb.afterOutcome keptAlive).state = pb.state ∧
              (pb.afterOutcome keptAlive).pal = pb.pal := by
            cases keptAlive <;> exact ⟨rfl, rfl⟩
          rw [unwind]
          split
          · exact hafter
          · exact ⟨(ih _).1.trans hafter.1, (ih _).2.trans hafter.2⟩
      | retryThread =>
          rw [unwind]
          exact ih pb.retryThreadEnds

lemma endPass_keeps (s : Net) (p : Pass) (stack : List Frame) :
    (s.endPass p stack).pb.state = p.pb.state ∧ (s.endPass p stack).pb.pal = p.pb.pal := by
  rw [endPass]
  split
  · exact unwind_keeps p.pb _
  · exact ⟨rfl, rfl⟩
  · exact ⟨rfl, rfl⟩
  · exact ⟨rfl, rfl⟩

/-- **A step that is no pass** keeps the reading where it is, or ends it. -/
lemma keepsReading_step {s s' : Net} {l : NetStep} (hl : ∀ a, l ≠ .fsm a)
    (hs : s.step l = some s') : KeepsReading s.pb s'.pb := by
  cases l with
  | start r =>
      simp only [step, Option.ite_none_right_eq_some, Option.some.injEq, Bool.and_eq_true] at hs
      obtain ⟨⟨⟨_, hcan⟩, _⟩, rfl⟩ := hs
      right
      show s.pb.state.receiving = false
      rcases Bool.or_eq_true _ _ ▸ hcan with hst | hst <;> rw [eq_of_beq hst] <;> rfl
  | cancel room =>
      simp only [step, Option.ite_none_right_eq_some, Option.some.injEq] at hs
      obtain ⟨_, rfl⟩ := hs
      exact .inr (receiving_pbncStop s.pb .cancelled room false)
  | callbackReturns =>
      rw [step] at hs
      split at hs
      · obtain rfl := Option.some.inj hs
        obtain ⟨hstate, hpal⟩ := unwind_keeps s.pb ‹List Frame›
        exact .inl ⟨hstate, congrArg Pal.buf hpal, congrArg Pal.sockState hpal⟩
      · cases hs
  | fsm a => exact absurd rfl (hl a)
  | processQueue =>
      simp only [step, Option.ite_none_right_eq_some, Option.some.injEq] at hs
      obtain ⟨_, rfl⟩ := hs
      exact .inl ⟨rfl, rfl, rfl⟩
  | pollEvent room =>
      simp only [step, Option.ite_none_right_eq_some, Option.some.injEq] at hs
      obtain ⟨_, rfl⟩ := hs
      exact keepsReading_requeue room
  | timeout room dns =>
      simp only [step, Option.ite_none_right_eq_some, Option.some.injEq] at hs
      obtain ⟨_, rfl⟩ := hs
      exact .inr (receiving_pbncStop _ .timeout room dns)
  | retryExpired =>
      simp only [step, Option.ite_none_right_eq_some, Option.some.injEq] at hs
      obtain ⟨_, rfl⟩ := hs
      rw [retryExpired]
      split
      · exact .inr rfl
      · exact .inl ⟨rfl, rfl, rfl⟩
  | arrive bytes =>
      obtain rfl := Option.some.inj hs
      exact .inl ⟨rfl, rfl, rfl⟩

end Net

/-! ## The invariant -/

/-- **What holds of the ledger**, wherever the reading is. -/
structure LinesRight (h : HeaderLedger) : Prop where
  isLine : ∀ l ∈ h.lines, IsLine 10 l.text
  received : ∃ rest, h.text ++ rest = h.received
  recognised : ∀ l ∈ h.lines, l.header = recogniseHeader l.scheme l.text
  folds : Folds h.lines
  notBefore : ∀ l ∈ h.lines.tail, isEmptyLine l.text = false
  atEnd : h.ended = h.lines.head?.any fun l => isEmptyLine l.text

namespace LinesRight

variable {h : HeaderLedger}

lemma inOrder (hr : LinesRight h) : (h.lines.map (·.text)).reverse <+: linesOf 10 h.received := by
  obtain ⟨rest, hrest⟩ := hr.received
  have hlines : ∀ l ∈ (h.lines.map (·.text)).reverse, IsLine 10 l := by
    intro l hl
    obtain ⟨r, hr', rfl⟩ := List.mem_map.mp (List.mem_reverse.mp hl)
    exact hr.isLine r hr'
  rw [← hrest, HeaderLedger.text, linesOf_flatten hlines]
  exact List.prefix_append _ _

/-- More has been received. -/
lemma receive (hr : LinesRight h) (d : Bytes) :
    LinesRight { h with received := h.received ++ d } where
  isLine := hr.isLine
  received := by
    obtain ⟨rest, hrest⟩ := hr.received
    exact ⟨rest ++ d, by rw [← hrest, List.append_assoc]; rfl⟩
  recognised := hr.recognised
  folds := hr.folds
  notBefore := hr.notBefore
  atEnd := hr.atEnd

/-- A line has been read, and the end had not been reached before. -/
lemma readLine (hr : LinesRight h) (hended : h.ended = false) (l : HeaderRead) (received : Bytes)
    (hline : IsLine 10 l.text) (hreceived : ∃ rest, h.text ++ (l.text ++ rest) = received)
    (hheader : l.header = recogniseHeader l.scheme l.text)
    (hfold : (∃ read, l.header = .folded read) → h.afterProxy = true) :
    LinesRight { received, lines := l :: h.lines, ended := isEmptyLine l.text } where
  isLine := by
    intro m hm
    rcases List.mem_cons.mp hm with rfl | hm
    · exact hline
    · exact hr.isLine m hm
  received := by
    obtain ⟨rest, hrest⟩ := hreceived
    refine ⟨rest, ?_⟩
    rw [← hrest, HeaderLedger.text, HeaderLedger.text, List.map_cons, List.reverse_cons,
      List.flatten_append, List.append_assoc, List.flatten_singleton]
  recognised := by
    intro m hm
    rcases List.mem_cons.mp hm with rfl | hm
    · exact hheader
    · exact hr.recognised m hm
  folds := ⟨hfold, hr.folds⟩
  notBefore := by
    have hend := hr.atEnd
    have hbefore := hr.notBefore
    rw [hended] at hend
    rw [List.tail_cons]
    cases hlines : h.lines with
    | nil => exact fun m hm => absurd hm List.not_mem_nil
    | cons m ms =>
        rw [hlines] at hend hbefore
        rintro k hk
        rcases List.mem_cons.mp hk with rfl | hk
        · exact hend.symm
        · exact hbefore k hk
  atEnd := rfl

end LinesRight

namespace HeaderRun

open Pb

variable {s : HeaderRun} {a : Answer}

/-- **The invariant.** -/
structure Sound (s : HeaderRun) : Prop where
  lines : LinesRight s.ledger
  headers : s.net.pb.state = .rxHeaders → s.ledger.ended = false ∧
    s.ledger.text ++ s.net.pb.pal.buf.unread = s.ledger.received
  headerLine : s.net.pb.state = .rxHeaderLine → s.ledger.ended = false ∧
    s.net.pb.pal.buf.Tiled ∧ 10 ∉ s.net.pb.pal.buf.taken ∧
    s.ledger.text ++ (s.net.pb.pal.buf.taken ++ s.net.pb.pal.buf.unread) = s.ledger.received
  body : s.net.pb.state.readsBody = true → s.ledger.ended = true

/-- Nothing is known of the reading when there is none. -/
lemma sound_of_not_receiving (hr : LinesRight s.ledger)
    (hs : s.net.pb.state.receiving = false) : s.Sound := by
  have hno := readsHeaders_of_not_receiving hs
  refine ⟨hr, fun h => ?_, fun h => ?_, fun h => ?_⟩
  · rw [h] at hs
    cases hs
  · rw [h] at hs
    cases hs
  · rw [hno.2] at h
    cases h

/-- What the guard says of a line that ends in the buffer. -/
lemma lineClear_of_line {line rest : Bytes} (hline : 10 ∉ line)
    (hheld : (s.net.pb.pal.lineWindow a.recv).taken ++ (s.net.pb.pal.lineWindow a.recv).unread =
      line ++ [10] ++ rest) (h : s.lineClear a = true) :
    (2 < (line ++ [10]).length ∨ isEmptyLine (line ++ [10]) = true) ∧
      recogniseHeader s.net.pb.proxyAuthScheme (s.net.pb.pal.lineWindow a.recv).mem =
        recogniseHeader s.net.pb.proxyAuthScheme (line ++ [10]) ∧
      (startsBlank (line ++ [10]) = true → s.net.pb.proxyAuthScheme = .digest →
        s.ledger.afterProxy = true) := by
  obtain ⟨stale, hmem⟩ := (s.net.pb.pal.lineWindow a.recv).exists_mem_eq
  rw [hheld] at hmem
  have hfind : (line ++ [10] ++ rest).takeWhile (· != 10) = line := by
    have hall : ∀ c ∈ line, (c != 10) = true := fun c hc => bne_iff_ne.mpr fun heq => hline (heq ▸ hc)
    rw [List.append_assoc, List.takeWhile_append_of_pos hall, List.singleton_append,
      List.takeWhile_cons_of_neg (by decide), List.append_nil]
  have hbehind : (s.net.pb.pal.lineWindow a.recv).mem.drop (line ++ [10]).length = rest ++ stale := by
    rw [hmem, List.append_assoc (line ++ [10]), List.drop_left]
  rw [lineClear] at h
  dsimp only at h
  rw [hheld, hfind, hbehind, if_pos (by simp), Bool.and_eq_true, Bool.and_eq_true,
    Bool.or_eq_true, decide_eq_true_eq] at h
  obtain ⟨⟨hlen, hvalue⟩, hfold⟩ := h
  refine ⟨hlen, ?_, fun hblank hdigest => ?_⟩
  · rw [hmem, List.append_assoc (line ++ [10])]
    exact recogniseHeader_append (by simp) hvalue
  · rw [hblank, hdigest] at hfold
    exact hfold

/-- An empty line is no header. -/
lemma recogniseHeader_of_isEmptyLine (scheme : AuthScheme) {line : Bytes}
    (h : isEmptyLine line = true) : recogniseHeader scheme line = .other := by
  rcases Bool.or_eq_true _ _ ▸ h with h | h
  · rw [eq_of_beq h]
    rfl
  · rw [eq_of_beq h]
    rfl

/-- A header goes on with one of the proxy only where the line begins with a blank, and the scheme is
    the one that supports it. -/
lemma of_recogniseHeader_folded {scheme : AuthScheme} {line : Bytes}
    {read : List (Bytes × Option Bytes)} (h : recogniseHeader scheme line = .folded read) :
    startsBlank line = true ∧ scheme = .digest := by
  have hproxy : recogniseProxyHeader scheme line = .folded read := by
    rw [recogniseHeader] at h
    repeat'
      split at h
      · cases h
    exact h
  rw [recogniseProxyHeader] at hproxy
  split at hproxy
  · split at hproxy
    · exact ⟨‹_›, ‹_›⟩
    · cases hproxy
  · split at hproxy
    · cases hproxy
    · cases hproxy

/-- **A header line has been read to its end.** -/
lemma sound_ended {pal : Pal} {line d : Bytes} {net : Net} {ended : Bool} {header : Header}
    (h : s.Sound) (hst : s.net.pb.state = .rxHeaderLine) (hclear : s.lineClear a = true)
    (ht : pal.buf.Tiled) (htaken : pal.buf.taken = line ++ [10]) (hline : 10 ∉ line)
    (hmem : pal.buf.mem = (s.net.pb.pal.lineWindow a.recv).mem)
    (hheld : pal.buf.taken ++ pal.buf.unread =
      (s.net.pb.pal.lineWindow a.recv).taken ++ (s.net.pb.pal.lineWindow a.recv).unread)
    (hstream : s.ledger.text ++ (pal.buf.taken ++ pal.buf.unread) = s.ledger.received ++ d)
    (hstate : net.pb.state = ((s.net.pb.withPal pal).headerLineRead a .ok).pb.state)
    (hpal : net.pb.pal = ((s.net.pb.withPal pal).headerLineRead a .ok).pb.pal)
    (hended : ended = decide (pal.readLen ≤ 2))
    (hheader : header =
      if pal.readLen ≤ 2 then .other
      else recogniseHeader s.net.pb.proxyAuthScheme pal.buf.mem) :
    Sound { net
            ledger :=
              { received := s.ledger.received ++ d
                lines := ⟨pal.buf.taken, s.net.pb.proxyAuthScheme, header⟩ :: s.ledger.lines
                ended } } := by
  have hlen : pal.readLen = (line ++ [10]).length := by
    rw [← htaken, ReadWindow.length_taken ht]
    rfl
  obtain ⟨hempty, hsame, hfold⟩ := lineClear_of_line hline (by rw [← hheld, htaken]) hclear
  rw [htaken] at hstream
  have hend : ended = isEmptyLine (line ++ [10]) := by
    rw [hended, hlen]
    by_cases hshort : (line ++ [10]).length ≤ 2
    · rw [hempty.resolve_left (by omega), decide_eq_true hshort]
    · rw [decide_eq_false hshort]
      symm
      rw [← Bool.not_eq_true]
      intro hempty
      rcases Bool.or_eq_true _ _ ▸ hempty with heq | heq
      all_goals
        rw [eq_of_beq heq] at hshort
        exact hshort (by decide)
  have hright : header = recogniseHeader s.net.pb.proxyAuthScheme (line ++ [10]) := by
    rw [hheader, hlen]
    split
    · rw [recogniseHeader_of_isEmptyLine _ (hempty.resolve_left (by omega))]
    · rw [hmem, hsame]
  have hlines := h.lines.readLine (h.headerLine hst).1
    ⟨pal.buf.taken, s.net.pb.proxyAuthScheme, header⟩ (s.ledger.received ++ d)
    ⟨line, htaken, hline⟩ ⟨pal.buf.unread, by rw [htaken, hstream]⟩ (by rw [htaken]; exact hright)
    (by
      rintro ⟨read, hread⟩
      obtain ⟨hblank, hdigest⟩ := of_recogniseHeader_folded (hright.symm.trans hread)
      exact hfold hblank hdigest)
  have hright' : LinesRight
      { received := s.ledger.received ++ d
        lines := ⟨pal.buf.taken, s.net.pb.proxyAuthScheme, header⟩ :: s.ledger.lines
        ended } := by
    rw [hend, ← htaken]
    exact hlines
  have hpass : (s.net.pb.withPal pal).headerLineRead a .ok =
      if pal.readLen ≤ 2 then (s.net.pb.withPal pal).endOfHeaders a
      else (s.net.pb.withPal pal).headerLine a := rfl
  rw [hpass] at hstate hpal
  by_cases hshort : pal.readLen ≤ 2
  · rw [if_pos hshort] at hstate
    have hno : net.pb.state.readsHeaders = false := by
      rw [hstate]
      exact readsHeaders_endOfHeaders
    refine ⟨hright', fun hs => ?_, fun hs => ?_, fun _ => ?_⟩
    · rw [show net.pb.state = _ from hs] at hno
      cases hno
    · rw [show net.pb.state = _ from hs] at hno
      cases hno
    · exact hended.trans (decide_eq_true hshort)
  · rw [if_neg hshort, headerLine_eq_applyHeader] at hstate hpal
    rcases (s.net.pb.withPal pal).applyHeader_state a
      (recogniseHeader (s.net.pb.withPal pal).proxyAuthScheme (s.net.pb.withPal pal).httpBuf)
      with ⟨hnext, hsamePal⟩ | hno
    · rw [hnext] at hstate
      rw [hsamePal] at hpal
      refine ⟨hright', fun _ => ⟨?_, ?_⟩, fun hs => ?_, fun hs => ?_⟩
      · exact hended.trans (decide_eq_false hshort)
      · show HeaderLedger.text _ ++ net.pb.pal.buf.unread = _
        rw [hpal, HeaderLedger.text, List.map_cons, List.reverse_cons, List.flatten_append,
          List.flatten_singleton, List.append_assoc, ← hstream, ← htaken]
        rfl
      · exact absurd (hstate.symm.trans hs) nofun
      · rw [show net.pb.state = _ from hstate] at hs
        cases hs
    · exact sound_of_not_receiving hright' (by rw [hstate]; exact hno)

/-- **Reading a header line.** -/
lemma sound_headerLine {p : Pass} {pal : Pal} {rslt : PubnubRes} {net : Net} {l : HeaderLedger}
    (h : s.Sound) (hst : s.net.pb.state = .rxHeaderLine) (hclear : s.lineClear a = true)
    (hread : s.net.pb.pal.lineReadStatus a.recv = some (pal, rslt))
    (hp : p = (s.net.pb.withPal pal).headerLineRead a rslt)
    (hstate : net.pb.state = p.pb.state) (hpal : net.pb.pal = p.pb.pal)
    (hl : l = s.ledger.lineRead s.net.pb.proxyAuthScheme
      (s.net.pb.pal.incoming.take (s.net.pb.pal.incoming.length - pal.incoming.length)) pal rslt) :
    Sound { net, ledger := l } := by
  obtain ⟨hended, ht, hno, hreceived⟩ := h.headerLine hst
  obtain ⟨d, hd⟩ := Pal.reads_lineReadStatus ht hread
  have hdelivered :
      s.net.pb.pal.incoming.take (s.net.pb.pal.incoming.length - pal.incoming.length) = d := by
    rw [hd.incoming, List.length_append, Nat.add_sub_cancel, List.take_left]
  have hstream : s.ledger.text ++ (pal.buf.taken ++ pal.buf.unread) = s.ledger.received ++ d := by
    rw [hd.stream, ← List.append_assoc, hreceived]
  subst hp hl
  rw [hdelivered]
  -- the read ends at the end of a line, goes on, or fails; the guard rules out a line too long
  cases Pal.lineRead_lineReadStatus ht hno hread with
  | ended line htaken hline hmem hs hheld =>
      exact sound_ended h hst hclear hd.tiled htaken hline hmem hheld hstream hstate hpal
        (by rw [hended]; rfl) rfl
  | tooLong hnone hlen =>
      have hshort := hclear
      rw [lineClear] at hshort
      dsimp only at hshort
      rw [if_neg (by rwa [List.contains_iff_mem]), decide_eq_true_eq] at hshort
      omega
  | goesOn hnone hs =>
      have hok : PubnubRes.inProgress ≠ .ok := by decide
      rw [HeaderLedger.lineRead_of_not_ended _ _ _ _ hok (by decide)]
      have hsame : net.pb.state = .rxHeaderLine := hstate.trans hst
      refine ⟨h.lines.receive d, fun hs => ?_, fun _ => ⟨hended, ?_⟩, fun hs => ?_⟩
      · exact absurd (hsame.symm.trans hs) nofun
      · rw [show net.pb.pal = pal from hpal]
        exact ⟨hd.tiled, hnone, hstream⟩
      · rw [show net.pb.state = _ from hsame] at hs
        cases hs
  | failed hok hsmall hgo =>
      rw [HeaderLedger.lineRead_of_not_ended _ _ _ _ hok hsmall]
      refine sound_of_not_receiving (h.lines.receive d) ?_
      rw [hstate, headerLineRead.eq_def]
      split
      · exact absurd rfl hgo
      · exact absurd rfl hsmall
      · exact absurd rfl hok
      · exact (leaves_outcomeDetected _ a rslt .brk).receiving

/-- What a pass adds to the ledger in a state that reads neither a status line nor a header line. -/
lemma record_of_ne {net : Net} (hv : s.net.pb.state ≠ .rxHttpVer)
    (hl : s.net.pb.state ≠ .rxHeaderLine) : s.record (.fsm a) net = s.ledger := by
  rw [record.eq_def]
  split
  · exact absurd ‹_› hv
  · exact absurd ‹_› hl
  · rfl

/-- **The status line.**  The ledger begins anew. -/
lemma sound_statusLine {net : Net} {r : Pal × PubnubRes} (h : s.Sound)
    (hv : s.net.pb.state = .rxHttpVer)
    (hstate : net.pb.state = ((s.net.pb.withPal r.1).statusLineRead a r.2).pb.state) :
    Sound { net, ledger := s.record (.fsm a) net } := by
  have hledger : s.record (.fsm a) net =
      if net.pb.state = .rxHeaders then { received := net.pb.pal.buf.unread } else s.ledger := by
    rw [record.eq_def, hv]
  rw [hledger]
  rcases (s.net.pb.withPal r.1).statusLineRead_state a hv r.2 with hnext | hno
  · rw [hnext] at hstate
    rw [if_pos hstate]
    refine ⟨?_, fun _ => ⟨rfl, rfl⟩, fun hs => ?_, fun hs => ?_⟩
    · exact ⟨nofun, ⟨_, rfl⟩, nofun, trivial, nofun, rfl⟩
    · exact absurd (hstate.symm.trans hs) nofun
    · rw [show net.pb.state = _ from hstate] at hs
      cases hs
  · rw [← hstate] at hno
    have hne : net.pb.state ≠ .rxHeaders := by
      intro hs
      rw [hs] at hno
      cases hno
    rw [if_neg hne]
    exact sound_of_not_receiving h.lines hno

/-- **The start of a line.**  The platform layer asserts that the parts of the buffer make up its
    size. -/
lemma sound_startHeaderLine {net : Net} {pal : Pal} (h : s.Sound)
    (hst : s.net.pb.state = .rxHeaders) (hp : s.net.pb.pal.startReadLine = some pal)
    (hstate : net.pb.state = .rxHeaderLine) (hpal : net.pb.pal = pal) :
    Sound { net, ledger := s.record (.fsm a) net } := by
  obtain ⟨hended, hreceived⟩ := h.headers hst
  have ht : s.net.pb.pal.buf.Tiled := by
    have hassert := hp
    rw [Pal.startReadLine, Option.ite_none_right_eq_some] at hassert
    have hsum := hassert.1.2
    rw [ReadWindow.Tiled]
    omega
  have hstart := Pal.starts_startReadLine ht hp
  have hno : s.net.pb.state ≠ .rxHttpVer ∧ s.net.pb.state ≠ .rxHeaderLine := by
    rw [hst]
    decide
  rw [record_of_ne hno.1 hno.2]
  refine ⟨h.lines, fun hs => ?_, fun _ => ⟨hended, ?_⟩, fun hs => ?_⟩
  · exact absurd (hstate.symm.trans hs) (by decide)
  · rw [hpal, hstart.taken, hstart.unread]
    exact ⟨hstart.tiled, List.not_mem_nil, hreceived⟩
  · rw [show net.pb.state = _ from hstate] at hs
    cases hs

/-- **A piece of the body.** -/
lemma sound_body {p : Pass} {net : Net} (h : s.Sound) (hbody : s.net.pb.state.readsBody = true)
    (hp : s.net.pb.pass a = some p) (hstate : net.pb.state = p.pb.state) :
    Sound { net, ledger := s.record (.fsm a) net } := by
  have hno : net.pb.state.readsHeaders = false := by
    rw [hstate]
    exact readsHeaders_of_readsBody hbody hp
  have hledger : s.record (.fsm a) net = s.ledger := by
    refine record_of_ne (fun hst => ?_) fun hst => ?_
    all_goals
      rw [hst] at hbody
      cases hbody
  rw [hledger]
  refine ⟨h.lines, fun hs => ?_, fun hs => ?_, fun _ => h.body hbody⟩
  all_goals
    rw [show net.pb.state = _ from hs] at hno
    cases hno

/-- **One pass.** -/
lemma sound_pass {p : Pass} {net : Net} (h : s.Sound) (hg : s.linesClear (.fsm a) = true)
    (hp : s.net.pb.pass a = some p) (hstate : net.pb.state = p.pb.state)
    (hpal : net.pb.pal = p.pb.pal) : Sound { net, ledger := s.record (.fsm a) net } := by
  by_cases hbody : s.net.pb.state.readsBody = true
  · exact sound_body h hbody hp hstate
  by_cases hv : s.net.pb.state = .rxHttpVer
  · simp only [Pb.pass, hv] at hp
    obtain ⟨r, _, rfl⟩ := Option.map_eq_some_iff.mp hp
    exact sound_statusLine h hv hstate
  by_cases hst : s.net.pb.state = .rxHeaders
  · simp only [Pb.pass, hst] at hp
    obtain ⟨pal, hread, rfl⟩ := Option.map_eq_some_iff.mp hp
    exact sound_startHeaderLine h hst hread hstate hpal
  by_cases hline : s.net.pb.state = .rxHeaderLine
  · simp only [Pb.pass, hline] at hp
    obtain ⟨⟨pal, rslt⟩, hread, rfl⟩ := Option.map_eq_some_iff.mp hp
    have hclear : s.lineClear a = true := by
      rw [linesClear, hline] at hg
      exact hg
    refine sound_headerLine h hline hclear hread rfl hstate hpal ?_
    rw [record.eq_def, hline]
    dsimp only
    rw [hread]
  · have hnot : s.net.pb.state.receiving = false := by
      rw [← Bool.not_eq_true]
      intro hrec
      refine hbody ?_
      rw [PbState.readsBody, hrec, Bool.true_and, Bool.not_eq_true']
      cases hcase : s.net.pb.state with
      | rxHeaders => exact absurd hcase hst
      | rxHeaderLine => exact absurd hcase hline
      | _ => rfl
    rw [record_of_ne hv hline]
    exact sound_of_not_receiving h.lines (hstate ▸ (leaves_pass hnot hv p hp).receiving)

/-- **One step.** -/
lemma sound_step {s' : HeaderRun} {l : NetStep} (h : s.Sound) (hg : s.linesClear l = true)
    (hs : s.step l = some s') : s'.Sound := by
  obtain ⟨net, hnet, rfl⟩ := Option.map_eq_some_iff.mp hs
  by_cases hfsm : ∃ a, l = .fsm a
  · obtain ⟨a, rfl⟩ := hfsm
    rw [Net.step] at hnet
    split at hnet
    · obtain ⟨p, hp, rfl⟩ := Option.map_eq_some_iff.mp hnet
      obtain ⟨hstate, hpal⟩ := Net.endPass_keeps s.net p ‹List Frame›
      exact sound_pass h hg hp hstate hpal
    · cases hnet
  · have hl : ∀ a, l ≠ .fsm a := fun a heq => hfsm ⟨a, heq⟩
    have hledger : s.record l net = s.ledger := by
      rw [record.eq_def]
      split
      · exact absurd rfl (hl _)
      · exact absurd rfl (hl _)
      · rfl
    rw [hledger]
    rcases Net.keepsReading_step hl hnet with ⟨hstate, hbuf, _⟩ | hno
    · refine ⟨h.lines, ?_, ?_, ?_⟩
      · rw [hstate, hbuf]
        exact h.headers
      · rw [hstate, hbuf]
        exact h.headerLine
      · rw [hstate]
        exact h.body
    · exact sound_of_not_receiving h.lines hno

/-- **The headers of a response are read as they are.**  In every run whose passes meet the
    condition, whatever the lengths of the lines, the pieces in which they arrive and the sizes of
    the reads: the header lines read are the first lines of the response, each is recognised as what
    it is by itself, and the headers end exactly at the first empty line. -/
theorem headers_right (o : PubnubOptions) (s : HeaderRun)
    (hr : (headerMachine o).Reachable (fun s l => s.linesClear l = true) s) : HeadersRight s := by
  have hsound : s.Sound := by
    refine hr.invariant (P := Sound) ?_ fun s l s' => sound_step
    refine sound_of_not_receiving ?_ rfl
    exact ⟨nofun, ⟨[], rfl⟩, nofun, trivial, nofun, rfl⟩
  refine ⟨hsound.lines.inOrder, hsound.lines.recognised, hsound.lines.folds,
    hsound.lines.notBefore, hsound.lines.atEnd, fun hs => ?_, hsound.body⟩
  cases hst : s.net.pb.state with
  | rxHeaders => exact (hsound.headers hst).1
  | rxHeaderLine => exact (hsound.headerLine hst).1
  | _ =>
      rw [hst] at hs
      cases hs

/-- The headers arrive in two pieces, the first of which ends inside a name. -/
def twoPiecesRun : List NetStep :=
  answeredRun timeRequest (ascii "HTTP/1.1 200 OK\r\nContent-Length: 5\r\nRetry-Af") ++
    List.replicate 5 (.fsm willing) ++
    [.arrive (ascii "ter: 12\r\n\r\n[1,2]"), .pollEvent true, .processQueue] ++
    List.replicate 3 (.fsm willing)

theorem headers_right_twoPieces :
    ∃ s, (headerMachine {}).Reachable (fun s l => s.linesClear l = true) s ∧
      s.ledger.lines.map (·.header) = [.other, .retryAfter 12, .contentLength 5] ∧
      HeadersRight s := by
  obtain ⟨s, hr, hs⟩ := Machine.exists_reachable_of_replay (headerMachine {}) linesClear
    twoPiecesRun
    (fun s => s.ledger.lines.map (·.header) == [.other, .retryAfter 12, .contentLength 5])
    (fun _ _ h => h) (by decide +kernel)
  exact ⟨s, hr, eq_of_beq hs, headers_right {} s hr⟩

/-- A header line of `PUBNUB_BUF_MAXLEN` characters and more arrives, and goes on with what looks like
    the length of the body. -/
def longLineRun : List NetStep :=
  answeredRun timeRequest (ascii "HTTP/1.1 200 OK\r\n") ++ List.replicate 2 (.fsm willing) ++
    [.arrive (List.replicate pubnubBufMaxlen 97), .fsm willing,
      .arrive (ascii "Content-Length: 5\r\n"), .fsm willing, .fsm willing]

/-- A line with one character and without a carriage return stands among the headers. -/
def oneCharacterRun : List NetStep :=
  answeredRun timeRequest
    (ascii "HTTP/1.1 200 OK\r\nContent-Length: 5\r\nx\nDate: now\r\n\r\n[1,2]") ++
    List.replicate 5 (.fsm willing)

/-- The length is recognised in the middle of the long line; and the line with one character ends the
    headers. -/
theorem headers_not_always_right :
    (¬ ∀ o s, (headerMachine o).Reachable Machine.anyStep s →
      (s.ledger.lines.map (·.text)).reverse <+: linesOf 10 s.ledger.received) ∧
    (¬ ∀ o s, (headerMachine o).Reachable Machine.anyStep s →
      s.ledger.ended = s.ledger.lines.head?.any fun l => isEmptyLine l.text) := by
  constructor
  · intro h
    obtain ⟨s, hr, hs⟩ := Machine.exists_reachable_of_replay (headerMachine {}) (fun _ _ => true)
      longLineRun
      (fun s => s.ledger.lines.head?.map (·.header) == some (.contentLength 5) &&
        s.ledger.lines.any fun l => l.text.getLast? == some 97)
      (fun _ _ _ => trivial) (by decide +kernel)
    obtain ⟨l, hl, hlast⟩ := List.any_eq_true.mp (Bool.and_eq_true _ _ ▸ hs).2
    have hmem : l.text ∈ (s.ledger.lines.map (·.text)).reverse :=
      List.mem_reverse.mpr (List.mem_map_of_mem hl)
    obtain ⟨body, hbody, _⟩ := isLine_of_mem_linesOf ((h {} s hr).subset hmem)
    rw [hbody, List.getLast?_concat] at hlast
    exact absurd hlast (by decide)
  · intro h
    obtain ⟨s, hr, hs⟩ := Machine.exists_reachable_of_replay (headerMachine {}) (fun _ _ => true)
      oneCharacterRun
      (fun s => s.net.pb.state == .rxBody && s.ledger.ended &&
        !s.ledger.lines.head?.any fun l => isEmptyLine l.text)
      (fun _ _ _ => trivial) (by decide +kernel)
    simp only [Bool.and_eq_true, Bool.not_eq_true'] at hs
    have hend := h {} s hr
    rw [hs.1.2, hs.2] at hend
    cases hend

end HeaderRun

end PubNub
