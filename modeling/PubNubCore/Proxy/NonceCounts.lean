import PubNubCore.Lib.Machine
import PubNubCore.Proxy.DigestHeader

/-!
# No answer is given twice

What a server goes by when it looks for replayed answers are its nonce, the nonce of the client and the
count.  The code draws a nonce for the client when it answers the first time after
`Proxy-Authenticate: Digest`, and counts from 1 on; a `nonce` or `stale` in any line sets the count
back, also in one that continues a challenge, where the nonce of the client stays.

The machine here follows a context of `pbhttp_digest.c` through header lines and requests, over all
transactions of its client.  `nonce_counts_fresh` says that no two headers agree in the three of
them, in every run in which the random bytes do not repeat, no line that continues a challenge sets
the count back, and the count does not overflow.
-/

namespace PubNub

/-! ## The numbers that are printed -/

lemma hexDigit_injOn {m n : Nat} (hm : m < 16) (hn : n < 16) (h : hexDigit m = hexDigit n) : m = n := by
  have hall : ∀ m < 16, ∀ n < 16, hexDigit m = hexDigit n → m = n := by decide
  exact hall m hm n hn h

/-- As many digits tell a number that has no more of them. -/
lemma hexDigits_injOn {k m n : Nat} (hm : m < 16 ^ k) (hn : n < 16 ^ k)
    (h : hexDigits k m = hexDigits k n) : m = n := by
  induction k generalizing m n with
  | zero => omega
  | succ k ih =>
      rw [Nat.pow_succ] at hm hn
      rw [hexDigits, hexDigits] at h
      obtain ⟨hinit, hlast⟩ := List.append_inj' h rfl
      have hdiv : m / 16 = n / 16 := ih (Nat.div_lt_of_lt_mul (by omega))
        (Nat.div_lt_of_lt_mul (by omega)) hinit
      have hmod : m % 16 = n % 16 := hexDigit_injOn (Nat.mod_lt m (by decide))
        (Nat.mod_lt n (by decide)) (List.head_eq_of_cons_eq hlast)
      omega

lemma nonceCountStr_injOn {m n : Nat} (hm : m < 2 ^ 32) (hn : n < 2 ^ 32)
    (h : nonceCountStr m = nonceCountStr n) : m = n :=
  hexDigits_injOn (k := 8) hm hn h

/-! ## The runs -/

/-- What can happen.  A request is made with the bytes that would be drawn for a nonce. -/
inductive DigestStep
  | start
  | line (line : Bytes)
  | request (ntlm : NtlmAnswer) (uuid : Bytes)

/-- A context with a proxy. -/
structure DigestRun where
  auth : ProxyAuth
  clientNonce : Bytes
  /-- The nonces and the count of each header with a quality of protection. -/
  used : List (Bytes × Bytes × Bytes)
  /-- The nonces of the client so far. -/
  drawn : List Bytes

namespace DigestRun

variable (s : DigestRun)

/-- What `pbhttp_digest_prep_header_to_send` is called with. -/
def client : DigestClient := ⟨s.auth.digest, s.clientNonce⟩

/-- A header line of a response; `pbhttp_digest_init` takes the nonce of the client away. -/
def headerLine (line : Bytes) : DigestRun :=
  { s with
    auth := (s.auth.pbproxyHandleHttpHeader line).2
    clientNonce := match s.auth.readLine line with
      | .digest _ => []
      | _ => s.clientNonce }

/-- What a header has in it that is not to come again. -/
def noted (c : DigestClient) : List (Bytes × Bytes × Bytes) :=
  if c.ctx.qop = .none then [] else [(c.ctx.nonce, c.clientNonce, nonceCountStr c.ctx.nc)]

/-- A request with a header for Digest. -/
def answer (uuid : Bytes) : DigestRun :=
  let c := s.client.withNonce uuid
  { auth := { s.auth with sent := true, digest := c.counted.ctx }
    clientNonce := c.clientNonce
    used := s.used ++ noted c
    drawn := if s.clientNonce = [] then s.drawn ++ [c.clientNonce] else s.drawn }

/-- A request. -/
def request (options : ProxyOptions) (ntlm : NtlmAnswer) (uuid : Bytes) : DigestRun :=
  if s.auth.scheme = .digest then
    if s.auth.digest.qop = .none ∨ s.auth.digest.nonce ≠ [] then s.answer uuid else s
  else { s with auth := (s.auth.pbproxyHttpHeaderToSend options ntlm).2 }

/-- One step. -/
def step (options : ProxyOptions) : DigestStep → Option DigestRun
  | .start => some { s with auth := s.auth.initializeFields }
  | .line line => some (s.headerLine line)
  | .request ntlm uuid => some (s.request options ntlm uuid)

end DigestRun

/-- A context that has just been initialised. -/
def digestMachine (options : ProxyOptions) : Machine DigestRun DigestStep where
  init := ⟨⟨.none, false, [], 0, pbhttpDigestInit⟩, [], [], []⟩
  step s := s.step options

/-- A parameter that sets the count back. -/
def setsBack (p : Bytes × Option Bytes) : Bool :=
  startsWith p.1 (ascii "nonce") || startsWith p.1 (ascii "stale")

/-- The condition on a step: a line that continues a challenge does not set the count back, the bytes
    that are drawn for a nonce are 16 new ones, and the count does not overflow. -/
def DigestRun.Fresh (s : DigestRun) : DigestStep → Prop
  | .start => True
  | .line line =>
      match s.auth.readLine line with
      | .folded header => ∀ p ∈ keyValues header, setsBack p = false
      | _ => True
  | .request _ uuid =>
      (s.clientNonce = [] → uuid.length = 16 ∧ pbmd5ToStr uuid ∉ s.drawn) ∧ s.used.length + 2 < 2 ^ 32

/-! ## The count -/

section Count

variable {st st' : DigestParse}

/-- A parameter leaves the count as it is or sets it back, and only some set it back. -/
lemma nc_parameter {key value : Bytes} (h : st.parameter key value = some st') :
    st'.ctx.nc = st.ctx.nc ∨
      st'.ctx.nc = 1 ∧ (startsWith key (ascii "nonce") || startsWith key (ascii "stale")) = true := by
  rw [DigestParse.parameter] at h
  split_ifs at h with hrealm hcheck hnonce hvalue hdata hlong halgorithm hsess hmd5 hqop hint hauth
    hstale htrue
  all_goals
    cases h
    first
      | exact .inl rfl
      | exact .inr ⟨rfl, by simp [*]⟩

lemma nc_loop (ps : List (Bytes × Option Bytes)) (hone : st.ctx.nc = 1) :
    (st.loop ps).2.ctx.nc = 1 := by
  induction ps generalizing st with
  | nil => exact hone
  | cons p ps ih =>
      rw [DigestParse.loop]
      cases hparameter : st.parameter p.1 (p.2.getD []) with
      | none => exact hone
      | some st' =>
          exact ih ((nc_parameter hparameter).elim (fun h => h.trans hone) And.left)

lemma nc_loop_of_kept {ps : List (Bytes × Option Bytes)} (hkept : ∀ p ∈ ps, setsBack p = false) :
    (st.loop ps).2.ctx.nc = st.ctx.nc := by
  induction ps generalizing st with
  | nil => rfl
  | cons p ps ih =>
      rw [DigestParse.loop]
      cases hparameter : st.parameter p.1 (p.2.getD []) with
      | none => rfl
      | some st' =>
          rw [ih fun q hq => hkept q (List.mem_cons_of_mem p hq)]
          rcases nc_parameter hparameter with hsame | ⟨-, hback⟩
          · exact hsame
          · have hno := hkept p List.mem_cons_self
            rw [setsBack, hback] at hno
            cases hno

end Count

namespace ProxyAuth

variable (p : ProxyAuth)

/-- A line of Digest leaves in the context what its parser does. -/
lemma digest_processDigestHeaderLine (header : Bytes) : (p.processDigestHeaderLine header).2.digest =
    (pbhttpDigestParseHeader p.digest header p.realm).2.ctx := by
  rw [processDigestHeaderLine]
  simp only
  split
  · rfl
  · split <;> rfl

lemma nc_handleDigest (contents : Bytes) : (p.handleDigest contents).2.digest.nc = 1 := by
  rw [handleDigest]
  simp only
  split
  all_goals
    simp only [digest_processDigestHeaderLine, pbhttpDigestParseHeader]
    exact nc_loop _ rfl

lemma digest_handleBasic (contents : Bytes) : (p.handleBasic contents).2.digest = p.digest := by
  rw [handleBasic]
  split
  · split <;> rfl
  · split
    · rfl
    · split <;> rfl

lemma digest_handleNtlm : p.handleNtlm.2.digest = p.digest := by
  rw [handleNtlm]
  split <;> rfl

/-- Without a line for Digest the context stays. -/
lemma digest_handleHttpHeader {line : Bytes} (hd : ∀ contents, p.readLine line ≠ .digest contents)
    (hf : ∀ header, p.readLine line ≠ .folded header) :
    (p.pbproxyHandleHttpHeader line).2.digest = p.digest := by
  rw [pbproxyHandleHttpHeader]
  split
  · rfl
  · rfl
  · rename_i header hline
    exact absurd hline (hf header)
  · exact p.digest_handleBasic _
  · rename_i contents hline
    exact absurd hline (hd contents)
  · exact p.digest_handleNtlm

/-- A request in another scheme leaves the context alone. -/
lemma digest_httpHeaderToSend (options : ProxyOptions) (ntlm : NtlmAnswer) (hs : p.scheme ≠ .digest) :
    (p.pbproxyHttpHeaderToSend options ntlm).2.digest = p.digest := by
  rw [pbproxyHttpHeaderToSend]
  split
  · split
    · rfl
    · rfl
    · rename_i hscheme
      exact absurd hscheme hs
    · rfl
  · rfl

end ProxyAuth

/-! ## Nothing comes twice -/

lemma pbmd5ToStr_ne_nil {uuid : Bytes} (h : uuid.length = 16) : pbmd5ToStr uuid ≠ [] := by
  intro hnil
  have hlength := length_pbmd5ToStr uuid
  rw [hnil, h] at hlength
  cases hlength

namespace DigestRun

/-- What is known of the headers so far: the ones with the nonce that is in use have been counted. -/
structure Counted (s : DigestRun) : Prop where
  nodup : s.used.Nodup
  drawn : ∀ e ∈ s.used, e.2.1 ∈ s.drawn
  current : s.clientNonce = [] ∨ s.clientNonce ∈ s.drawn
  ne_nil : [] ∉ s.drawn
  counts : ∀ e ∈ s.used, e.2.1 = s.clientNonce → ∃ k < s.auth.digest.nc, e.2.2 = nonceCountStr k
  nc_le : s.auth.digest.nc ≤ s.used.length + 1

variable {s : DigestRun}

/-- The context may change, as long as the count stays or the nonce of the client goes. -/
lemma Counted.withAuth (h : s.Counted) {auth : ProxyAuth} (hnc : auth.digest.nc = s.auth.digest.nc) :
    Counted { s with auth } where
  nodup := h.nodup
  drawn := h.drawn
  current := h.current
  ne_nil := h.ne_nil
  counts e he heq := by
    obtain ⟨k, hk, hcount⟩ := h.counts e he heq
    exact ⟨k, hk.trans_eq hnc.symm, hcount⟩
  nc_le := hnc.trans_le h.nc_le

lemma Counted.withoutNonce (h : s.Counted) {auth : ProxyAuth} (hnc : auth.digest.nc = 1) :
    Counted { s with auth, clientNonce := [] } where
  nodup := h.nodup
  drawn := h.drawn
  current := .inl rfl
  ne_nil := h.ne_nil
  counts e he heq := by
    change e.2.1 = [] at heq
    exact absurd (heq ▸ h.drawn e he) h.ne_nil
  nc_le := hnc.trans_le (Nat.le_add_left 1 _)

lemma counted_headerLine {line : Bytes} (h : s.Counted) (hfresh : s.Fresh (.line line)) :
    (s.headerLine line).Counted := by
  rw [headerLine]
  cases hline : s.auth.readLine line with
  | digest contents =>
      refine h.withoutNonce ?_
      rw [ProxyAuth.pbproxyHandleHttpHeader, hline]
      exact s.auth.nc_handleDigest contents
  | folded header =>
      refine h.withAuth ?_
      rw [Fresh, hline] at hfresh
      rw [ProxyAuth.pbproxyHandleHttpHeader, hline]
      simp only [ProxyAuth.digest_processDigestHeaderLine, pbhttpDigestParseHeader]
      exact nc_loop_of_kept hfresh
  | _ =>
      refine h.withAuth ?_
      rw [ProxyAuth.digest_handleHttpHeader] <;> simp [hline]

/-- A nonce is drawn if there is none. -/
lemma counted_draw (h : s.Counted) {uuid : Bytes}
    (hnew : s.clientNonce = [] → uuid.length = 16 ∧ pbmd5ToStr uuid ∉ s.drawn) :
    Counted { s with
      clientNonce := (s.client.withNonce uuid).clientNonce
      drawn := if s.clientNonce = [] then s.drawn ++ [(s.client.withNonce uuid).clientNonce]
        else s.drawn } := by
  by_cases hnil : s.clientNonce = []
  · obtain ⟨hlength, hdrawn⟩ := hnew hnil
    have hnonce : (s.client.withNonce uuid).clientNonce = pbmd5ToStr uuid := by
      rw [DigestClient.withNonce, if_pos (show s.client.clientNonce = [] from hnil)]
    rw [hnonce, if_pos hnil]
    exact {
      nodup := h.nodup
      drawn := fun e he => List.mem_append_left _ (h.drawn e he)
      current := .inr (List.mem_append_right _ (List.mem_singleton_self _))
      ne_nil := by
        intro hmem
        rcases List.mem_append.mp hmem with hmem | hmem
        · exact h.ne_nil hmem
        · exact pbmd5ToStr_ne_nil hlength (List.mem_singleton.mp hmem).symm
      counts := by
        intro e he heq
        change e.2.1 = pbmd5ToStr uuid at heq
        exact absurd (heq ▸ h.drawn e he) hdrawn
      nc_le := h.nc_le }
  · have hnonce : (s.client.withNonce uuid).clientNonce = s.clientNonce := by
      rw [DigestClient.withNonce, if_neg (show ¬ s.client.clientNonce = [] from hnil)]
      rfl
    rw [hnonce, if_neg hnil]
    exact h

/-- The header is a new one, and it is counted. -/
lemma counted_note (h : s.Counted) (hnonce : s.clientNonce ≠ []) (hfew : s.used.length + 2 < 2 ^ 32) :
    Counted { s with
      auth := { s.auth with sent := true, digest := s.client.counted.ctx }
      used := s.used ++ noted s.client } := by
  rw [noted, DigestClient.counted]
  have hnc := h.nc_le
  by_cases hqop : s.client.ctx.qop = .none
  · rw [if_pos hqop, if_pos hqop, List.append_nil]
    exact h.withAuth rfl
  · rw [if_neg hqop, if_neg hqop]
    have hnext : (s.client.ctx.nc + 1) % 2 ^ 32 = s.auth.digest.nc + 1 :=
      Nat.mod_eq_of_lt (show s.auth.digest.nc + 1 < 2 ^ 32 by omega)
    have hnew : (s.client.ctx.nonce, s.client.clientNonce, nonceCountStr s.client.ctx.nc) ∉ s.used := by
      intro hmem
      obtain ⟨k, hk, hcount⟩ := h.counts _ hmem rfl
      have hsame : s.auth.digest.nc = k :=
        nonceCountStr_injOn (by omega) (by omega) hcount
      omega
    exact {
      nodup := by
        rw [List.nodup_append]
        refine ⟨h.nodup, List.nodup_singleton _, ?_⟩
        intro a ha b hb hab
        rw [List.mem_singleton.mp hb] at hab
        exact hnew (hab ▸ ha)
      drawn := by
        intro e he
        rcases List.mem_append.mp he with he | he
        · exact h.drawn e he
        · rw [List.mem_singleton.mp he]
          exact h.current.resolve_left hnonce
      current := h.current
      ne_nil := h.ne_nil
      counts := by
        intro e he heq
        change ∃ k < (s.client.ctx.nc + 1) % 2 ^ 32, e.2.2 = nonceCountStr k
        rw [hnext]
        rcases List.mem_append.mp he with he | he
        · obtain ⟨k, hk, hcount⟩ := h.counts e he heq
          exact ⟨k, hk.trans (Nat.lt_succ_self _), hcount⟩
        · exact ⟨s.auth.digest.nc, Nat.lt_succ_self _, by rw [List.mem_singleton.mp he]; rfl⟩
      nc_le := by
        change (s.client.ctx.nc + 1) % 2 ^ 32 ≤ _
        rw [hnext, List.length_append, List.length_singleton]
        omega }

lemma counted_answer {uuid : Bytes} (h : s.Counted)
    (hnew : s.clientNonce = [] → uuid.length = 16 ∧ pbmd5ToStr uuid ∉ s.drawn)
    (hfew : s.used.length + 2 < 2 ^ 32) : (s.answer uuid).Counted := by
  have hdrawn := counted_draw h hnew
  have hnonce : (s.client.withNonce uuid).clientNonce ≠ [] := by
    rw [DigestClient.withNonce]
    split
    · rename_i hnil
      exact pbmd5ToStr_ne_nil (hnew hnil).1
    · rename_i hne
      exact hne
  have hclient : s.client.withNonce uuid = ⟨s.auth.digest, (s.client.withNonce uuid).clientNonce⟩ := by
    rw [DigestClient.withNonce]
    split <;> rfl
  have hnoted := counted_note hdrawn hnonce hfew
  rw [answer]
  simp only [client] at hnoted hclient ⊢
  rw [← hclient] at hnoted
  exact hnoted

lemma counted_request {options : ProxyOptions} {ntlm : NtlmAnswer} {uuid : Bytes} (h : s.Counted)
    (hfresh : s.Fresh (.request ntlm uuid)) : (s.request options ntlm uuid).Counted := by
  rw [request]
  split
  · split
    · exact counted_answer h hfresh.1 hfresh.2
    · exact h
  · rename_i hscheme
    exact h.withAuth (congrArg DigestContext.nc (s.auth.digest_httpHeaderToSend options ntlm hscheme))

lemma counted_reachable {options : ProxyOptions}
    (hr : (digestMachine options).Reachable DigestRun.Fresh s) : s.Counted := by
  refine hr.invariant ?_ ?_
  · exact {
      nodup := List.nodup_nil
      drawn := by simp [digestMachine]
      current := .inl rfl
      ne_nil := List.not_mem_nil
      counts := by simp [digestMachine]
      nc_le := Nat.le_refl 1 }
  · intro s a s' h hfresh hstep
    cases a with
    | start =>
        cases hstep
        exact h.withAuth rfl
    | line line =>
        cases hstep
        exact counted_headerLine h hfresh
    | request ntlm uuid =>
        cases hstep
        exact counted_request h hfresh

end DigestRun

/-- **No answer twice.**  The headers with a quality of protection that a context has sent differ in the
    nonce of the server, the nonce of the client or the count, in every run in which what is drawn for
    nonces does not repeat, no line that continues a challenge sets the count back, and the count does
    not overflow. -/
theorem nonce_counts_fresh (options : ProxyOptions) (s : DigestRun)
    (hr : (digestMachine options).Reachable DigestRun.Fresh s) : s.used.Nodup :=
  (DigestRun.counted_reachable hr).nodup

/-- A challenge that wants a quality of protection, and two requests. -/
def answeredTwice : List DigestStep :=
  [.line (ascii "Proxy-Authenticate: Digest realm=\"proxy\", nonce=\"abc\", qop=\"auth\""),
    .request ⟨false, false⟩ (List.replicate 16 0), .start, .request ⟨false, false⟩ []]

/-- The condition, without lines that continue others. -/
def DigestRun.freshTest (s : DigestRun) : DigestStep → Bool
  | .start => true
  | .line line =>
      match s.auth.readLine line with
      | .digest _ => true
      | _ => false
  | .request _ uuid => decide ((s.clientNonce = [] → uuid.length = 16 ∧ pbmd5ToStr uuid ∉ s.drawn) ∧
      s.used.length + 2 < 2 ^ 32)

lemma DigestRun.fresh_of_test (s : DigestRun) (a : DigestStep) (h : s.freshTest a = true) : s.Fresh a := by
  cases a with
  | start => trivial
  | line line =>
      rw [freshTest] at h
      rw [Fresh]
      cases hline : s.auth.readLine line with
      | folded header =>
          rw [hline] at h
          cases h
      | _ => trivial
  | request ntlm uuid =>
      rw [freshTest, decide_eq_true_iff] at h
      exact h

theorem nonce_counts_fresh_answeredTwice : ∃ s : DigestRun,
    (digestMachine ⟨.httpConnect, [], []⟩).Reachable DigestRun.Fresh s ∧ s.used.Nodup ∧
      s.used.map (fun e => (e.1, e.2.2)) =
        [(ascii "abc", ascii "00000001"), (ascii "abc", ascii "00000002")] := by
  obtain ⟨s, hr, hs⟩ := Machine.exists_reachable_of_replay (digestMachine ⟨.httpConnect, [], []⟩)
    DigestRun.freshTest answeredTwice (fun s => s.used.map (fun e => (e.1, e.2.2)) ==
      [(ascii "abc", ascii "00000001"), (ascii "abc", ascii "00000002")]) DigestRun.fresh_of_test
    (by decide +kernel)
  exact ⟨s, hr, nonce_counts_fresh _ s hr, eq_of_beq hs⟩

end PubNub
