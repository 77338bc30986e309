import PubNubCore.Replies.Parsers

/-!
# When a parser leaves the windows of its own reply

For every entry of `m_aParseResponse`: the windows it leaves are those of the reply it has
parsed, they end inside it, and they are empty if the reply had the wrong format.

This does not hold for every reply, and each parser has its own condition, `ParserClear`.

**Returned too early.**  A parser that returns before it writes leaves the windows of an earlier
reply over the new bytes.  That is harmless only if both were idle, `Windows.Idle`.

**Returned too late.**  A parser that has set its windows before it looks leaves them open over
a reply of which it then says that it has the wrong format.

**Half written.**  The parsers of the grant, the revocation and the fetched history set the end
of the messages and nothing else.  The one of the deletion never sets the messages.
-/

namespace PubNub

/-- The two windows of a context. -/
structure Windows where
  msg : OffsetWindow
  chan : OffsetWindow
  deriving DecidableEq, Repr

namespace Windows

def cleared : Windows := ⟨.cleared, .cleared⟩

/-- Nothing is left in either window, and both end inside a reply of that length. -/
def Idle (w : Windows) (len : Nat) : Prop := w.msg.Idle len ∧ w.chan.Idle len

instance (w : Windows) (len : Nat) : Decidable (w.Idle len) :=
  inferInstanceAs (Decidable (_ ∧ _))

/-- The windows yield the same. -/
def Alike (v w : Windows) : Prop :=
  v.msg.visible = w.msg.visible ∧ v.chan.visible = w.chan.visible

end Windows

namespace Parsed

variable {w : Windows} {len ofs stop : Nat} {u : OffsetWindow} {result : PubnubRes}
  {timetoken : Option Bytes} {region : Option Int} {httpReply : Memory}

/-- The windows which a parser leaves. -/
def apply (p : Parsed) (w : Windows) : Windows := ⟨p.msg.apply w.msg, p.chan.apply w.chan⟩

/-- Both windows belong to the reply. -/
def Right (p : Parsed) (len : Nat) (w : Windows) : Prop :=
  p.msg.Right w.msg len (p.result = .formatError) ∧
    p.chan.Right w.chan len (p.result = .formatError)

instance (p : Parsed) (len : Nat) (w : Windows) : Decidable (p.Right len w) :=
  inferInstanceAs (Decidable (_ ∧ _))

lemma right_untouched (r : Reply) (result : PubnubRes) :
    (r.untouched result).Right len w ↔ w.Idle len := by
  rw [Right, Windows.Idle]
  exact and_congr WindowWrite.right_keep WindowWrite.right_keep

/-- A parser that sets both windows. -/
lemma right_set (hstop : stop ≤ len + 1) (hu : u.stop ≤ len + 1) :
    (Parsed.mk result (.set ⟨ofs, stop⟩) (.set u) timetoken region httpReply).Right len w ↔
      (result = .formatError → stop ≤ ofs ∧ u.Empty) := by
  rw [Right, WindowWrite.right_set, WindowWrite.right_set, OffsetWindow.Empty]
  tauto

/-- A parser that sets the messages, and says that there are no channels. -/
lemma right_setMsg (hstop : stop ≤ len + 1) :
    (Parsed.mk result (.set ⟨ofs, stop⟩) (.set .cleared) timetoken region httpReply).Right len w ↔
      (result = .formatError → stop ≤ ofs) := by
  rw [right_set hstop (Nat.zero_le _)]
  exact forall_congr' fun _ => and_iff_left OffsetWindow.empty_cleared

/-- A parser that sets the channels alone. -/
lemma right_setChan (hu : u.stop ≤ len + 1) :
    (Parsed.mk result .keep (.set u) timetoken region httpReply).Right len w ↔
      w.msg.Idle len ∧ (result = .formatError → u.Empty) := by
  rw [Right, WindowWrite.right_keep, WindowWrite.right_set]
  tauto

/-- A parser that sets the end of the messages alone. -/
lemma right_setStop (h0 : 0 < stop) (hlen : stop ≤ len + 1) :
    (Parsed.mk result (.setStop stop) .keep timetoken region httpReply).Right len w ↔
      (w.msg.ofs = 0 ∧ result ≠ .formatError) ∧ w.chan.Idle len := by
  rw [Right, WindowWrite.right_setStop h0 hlen, WindowWrite.right_keep]

end Parsed

/-! ## The conditions -/

/-- The windows are left right by `pbcc_parse_publish_response`. -/
def PublishClear (r : Reply) (w : Windows) : Prop :=
  2 ≤ r.replylen ∧ r.denied = false ∨ w.Idle r.len

def SimpleClear (r : Reply) (w : Windows) : Prop :=
  if r.replylen < 2 ∨ r.denied = true ∨ r.inBrackets = false then w.Idle r.len
  else (pbccSplitArray (r.memory.set (r.replylen - 1) 0) 1).2 = true

def PresenceClear (r : Reply) (w : Windows) : Prop :=
  2 ≤ r.replylen ∧ r.denied = false ∧ r.inBraces = true ∧ r.has (ascii "error") = false ∨
    w.Idle r.len

def ChannelRegistryClear (r : Reply) (w : Windows) : Prop :=
  let el : PbjsonElem := ⟨0, r.len⟩
  if pbjsonValueForFieldFound r.memory el (ascii "status") (ascii "403") = true then w.Idle r.len
  else (pbjsonGetObjectValue r.memory el (ascii "error")).isOk = true ∨ r.len = 0

def MessageCountsClear (r : Reply) (w : Windows) : Prop :=
  r.inBraces = true ∧ r.denied = false ∧ r.fieldIs (ascii "error") (ascii "false") = true ∧
    r.has (ascii "channels") = true ∨ w.Idle r.len

/-- The window of the messages has to be idle even where the deletion is confirmed. -/
def DeleteMessagesClear (r : Reply) (w : Windows) : Prop :=
  w.msg.Idle r.len ∧
    (r.inBraces = true ∧ r.denied = false ∧ r.has (ascii "error") = true ∧
      r.fieldIs (ascii "error") (ascii "true") = false ∨ w.chan.Idle r.len)

/-- The reply is an object, and either denied, or with data, or with an error instead. -/
def Reply.DataParses (r : Reply) (data error : Bytes) : Prop :=
  r.memory.byte r.closing = 125 ∧
    (pbjsonValueForFieldFound r.memory r.element (ascii "status") (ascii "403") = true ∨
      (pbjsonGetObjectValue r.memory r.element data).isOk = true ∨
      pbjsonGetObjectValue r.memory r.element data = .error .keyNotFound ∧
        (pbjsonGetObjectValue r.memory r.element error).isOk = true)

def DataClear (data error : Bytes) (r : Reply) (w : Windows) : Prop :=
  if r.opens = true then r.DataParses data error else w.Idle r.len

/-- Only a window that begins at the beginning may have its end set alone. -/
def TokenClear (r : Reply) (w : Windows) : Prop :=
  if r.opens = true then
    r.DataParses (ascii "data") (ascii "error") ∧ w.msg.ofs = 0 ∧ w.chan.Idle r.len
  else w.Idle r.len

def FetchHistoryClear (r : Reply) (w : Windows) : Prop :=
  if r.opens = true then r.memory.byte r.closing = 125 ∧ w.msg.ofs = 0 ∧ w.chan.Idle r.len
  else w.Idle r.len

/-- The array of the messages is well formed, or so short that its window is empty and without a
    channel list behind it. -/
def SubscribeArguments.Clear (a : SubscribeArguments) (r : Reply) (w : Windows) : Prop :=
  if 20 ≤ a.timeTokenLength then a.chan.Empty ∧ w.msg.Idle r.len
  else a.split.2 = true ∨ a.i ≤ 4 ∧ a.chan.Empty

def SubscribeClear (r : Reply) (w : Windows) : Prop :=
  if r.replylen < 2 ∨ r.denied = true ∨ r.fieldIs (ascii "status") (ascii "400") = true then
    w.Idle r.len
  else match r.lastArguments with
    | .absent => w.Idle r.len
    | .onlyChannels _ => w.msg.Idle r.len
    | .onlyGroups _ _ => False
    | .found a => a.Clear r w

def SubscribeV2Clear (r : Reply) (w : Windows) : Prop :=
  if r.len < minSubscribeV2ResponseLength ∨ r.denied = true ∨
      r.fieldIs (ascii "status") (ascii "400") = true ∨ r.malformedV2 = true ∨
      r.timetokenAndRegion.isOk = false then w.Idle r.len
  else r.has (ascii "m") = true ∨ w.msg.Idle r.len

/-- **When the parser of a transaction leaves the windows of its own reply.** -/
def ParserClear : Pbtt → Reply → Windows → Prop
  | .none => fun r w => w.Idle r.len
  | .subscribe => SubscribeClear
  | .publish | .signal => PublishClear
  | .time | .history => SimpleClear
  | .leave | .herenow | .globalHerenow | .wherenow | .setState | .stateGet | .heartbeat =>
      PresenceClear
  | .removeChannelGroup | .removeChannelFromGroup | .addChannelToGroup | .listChannelGroup =>
      ChannelRegistryClear
  | .subscribeV2 => SubscribeV2Clear
  | .messageCounts => MessageCountsClear
  | .deleteMessages => DeleteMessagesClear
  | .getallUuidmetadata | .setUuidmetadata | .getUuidmetadata | .deleteUuidmetadata
  | .getallChannelmetadata | .setChannelmetadata | .getChannelmetadata | .removeChannelmetadata
  | .getMemberships | .setMemberships | .removeMemberships | .getMembers | .addMembers
  | .setMembers | .removeMembers | .addAction | .removeAction | .getActions =>
      DataClear (ascii "data") (ascii "error")
  | .historyWithActions => DataClear (ascii "channels") (ascii "error_message")
  | .grantToken | .revokeToken => TokenClear
  | .fetchHistory => FetchHistoryClear

/-! ## Each parser -/

section Parsers

variable {r : Reply} {w : Windows}

lemma toNat_le_of_le_replylen {n : Int} (h : n ≤ r.replylen + 1) : n.toNat ≤ r.len + 1 := by
  have hle := r.replylen_le
  omega

/-- An empty text is split without a complaint. -/
lemma pbccSplitArray_nul {m : Memory} {i : Nat} (h : m.cells.drop i = 0 :: m.cells.drop (i + 1)) :
    (pbccSplitArray m i).2 = true := by
  rw [pbccSplitArray, h]
  rfl

lemma publishRight_iff :
    (pbccParsePublishResponse r).Right r.len w ↔ PublishClear r w := by
  have hright : ∀ (result : PubnubRes) (m : Memory),
      Parsed.Right { result, msg := .set .cleared, chan := .set .cleared, httpReply := m }
        r.len w ↔ True := by
    intro result m
    exact (Parsed.right_setMsg (Nat.zero_le _)).trans (iff_true_intro fun _ => le_rfl)
  rw [pbccParsePublishResponse, PublishClear]
  by_cases hlen : r.replylen < 2
  · rw [if_pos hlen, Parsed.right_untouched]
    exact (or_iff_right fun h => absurd h.1 (by omega)).symm
  · rw [if_neg hlen]
    cases hdenied : r.denied with
    | true =>
        rw [if_pos rfl, Parsed.right_untouched]
        exact (or_iff_right fun h => Bool.noConfusion h.2).symm
    | false =>
        rw [if_neg Bool.false_ne_true, iff_true_right (.inl ⟨by omega, rfl⟩)]
        dsimp only
        split
        · split
          · split <;> exact (hright _ _).mpr trivial
          · exact (hright _ _).mpr trivial
        · split <;> exact (hright _ _).mpr trivial

lemma simpleRight_iff : (simpleParseResponse r).Right r.len w ↔ SimpleClear r w := by
  rw [simpleParseResponse, SimpleClear]
  by_cases hlen : r.replylen < 2
  · rw [if_pos hlen, if_pos (.inl hlen), Parsed.right_untouched]
  · by_cases hdenied : r.denied = true
    · rw [if_neg hlen, if_pos hdenied, if_pos (.inr (.inl hdenied)), Parsed.right_untouched]
    · by_cases hno : r.inBrackets = false
      · rw [if_neg hlen, if_neg hdenied, if_pos hno, if_pos (.inr (.inr hno)),
          Parsed.right_untouched]
      · rw [if_neg hlen, if_neg hdenied, if_neg hno,
          if_neg (not_or.mpr ⟨hlen, not_or.mpr ⟨hdenied, hno⟩⟩)]
        generalize hsplit : pbccSplitArray (r.memory.set (r.replylen - 1) 0) 1 = p
        obtain ⟨m, ok⟩ := p
        have hstop : (r.replylen - 1).toNat ≤ r.len + 1 := toNat_le_of_le_replylen (by omega)
        dsimp only
        rw [Parsed.right_setMsg hstop]
        cases ok with
        | true => simp
        | false =>
            refine iff_of_false (fun hempty => ?_) Bool.false_ne_true
            have hshort : (r.replylen - 1).toNat ≤ 1 := hempty rfl
            have htwo : r.replylen = 2 := by omega
            have hok : (pbccSplitArray (r.memory.set (r.replylen - 1) 0) 1).2 = true := by
              have hlen := r.len_of_replylen (n := 2) (by omega) (by omega)
              have hbody : r.body.length = 2 := by
                rw [Reply.len] at hlen
                omega
              obtain ⟨a, b, hab⟩ := List.length_eq_two.mp hbody
              refine pbccSplitArray_nul ?_
              simp [htwo, Memory.set, Reply.memory, hab]
            rw [hsplit] at hok
            cases hok

lemma presenceRight_iff : (pbccParsePresenceResponse r).Right r.len w ↔ PresenceClear r w := by
  rw [pbccParsePresenceResponse, PresenceClear]
  by_cases hlen : r.replylen < 2
  · rw [if_pos hlen, Parsed.right_untouched]
    exact (or_iff_right fun h => absurd h.1 (by omega)).symm
  · rw [if_neg hlen]
    cases hdenied : r.denied with
    | true => simp [Parsed.right_untouched]
    | false =>
        cases hbraces : r.inBraces with
        | false => simp [Parsed.right_untouched]
        | true =>
            cases herror : r.has (ascii "error") with
            | true => simp [Parsed.right_untouched]
            | false =>
                have hstop : r.replylen.toNat ≤ r.len + 1 := toNat_le_of_le_replylen (by omega)
                rw [if_neg Bool.false_ne_true, if_neg Bool.true_eq_false.mp,
                  if_neg Bool.false_ne_true, iff_true_right (.inl ⟨by omega, rfl, rfl, rfl⟩)]
                refine (Parsed.right_setMsg hstop).mpr fun hformat => ?_
                cases hformat

lemma channelRegistryRight_iff :
    (pbccParseChannelRegistryResponse r).Right r.len w ↔ ChannelRegistryClear r w := by
  rw [pbccParseChannelRegistryResponse, ChannelRegistryClear]
  dsimp only
  split
  · rw [Parsed.right_untouched]
  · have hset : ∀ result : PubnubRes, (Parsed.mk result (.set .cleared) (.set ⟨0, r.len⟩) none none
        r.memory).Right r.len w ↔ (result = .formatError → r.len = 0) := by
      intro result
      refine (Parsed.right_set (Nat.zero_le _) (Nat.le_succ _)).trans (forall_congr' fun _ => ?_)
      show 0 ≤ 0 ∧ r.len ≤ 0 ↔ r.len = 0
      omega
    rw [hset]
    split
    · rename_i found hfound
      rw [hfound]
      split <;> simp [Except.isOk, Except.toBool]
    · rename_i e hfound
      rw [hfound]
      simp [Except.isOk, Except.toBool]

/-- The end of a member of the reply, without the byte that closes it. -/
lemma found_stop {found : PbjsonElem} {name : Bytes}
    (h : pbjsonGetObjectValue r.memory r.whole name = .ok found) :
    (found.stop - 1).toNat ≤ r.len + 1 := by
  have hstop : found.stop ≤ r.replylen + 2 := pbjsonGetObjectValue_stop_le h
  exact toNat_le_of_le_replylen (by omega)

lemma messageCountsRight_iff :
    (pbccParseMessageCountsResponse r).Right r.len w ↔ MessageCountsClear r w := by
  rw [pbccParseMessageCountsResponse, MessageCountsClear, Reply.fieldIs,
    pbjsonValueForFieldFound, Reply.has]
  cases hbraces : r.inBraces with
  | false => simp [Parsed.right_untouched]
  | true =>
      cases hdenied : r.denied with
      | true => simp [Parsed.right_untouched]
      | false =>
          cases herror : pbjsonGetObjectValue r.memory r.whole (ascii "error") with
          | error e => simp [Parsed.right_untouched]
          | ok found =>
              dsimp only
              cases hfalse : pbjsonElemEqualsString r.memory found (ascii "false") with
              | false => simp [Parsed.right_untouched]
              | true =>
                  cases hchannels : pbjsonGetObjectValue r.memory r.whole (ascii "channels") with
                  | error e => simp [Parsed.right_untouched, Except.isOk, Except.toBool]
                  | ok channels =>
                      rw [iff_true_right (.inl ⟨rfl, rfl, rfl, rfl⟩)]
                      refine (Parsed.right_setMsg (found_stop hchannels)).mpr fun hformat => ?_
                      cases hformat

lemma deleteMessagesRight_iff :
    (pbccParseDeleteMessagesResponse r).Right r.len w ↔ DeleteMessagesClear r w := by
  rw [pbccParseDeleteMessagesResponse, DeleteMessagesClear, Reply.fieldIs,
    pbjsonValueForFieldFound, Reply.has]
  cases hbraces : r.inBraces with
  | false => simp [Parsed.right_untouched, Windows.Idle]
  | true =>
      cases hdenied : r.denied with
      | true => simp [Parsed.right_untouched, Windows.Idle]
      | false =>
          cases herror : pbjsonGetObjectValue r.memory r.whole (ascii "error") with
          | error e =>
              simp [Parsed.right_untouched, Windows.Idle, Except.isOk, Except.toBool]
          | ok found =>
              dsimp only
              cases htrue : pbjsonElemEqualsString r.memory found (ascii "true") with
              | true => simp [Parsed.right_untouched, Windows.Idle]
              | false =>
                  simp only [Bool.true_eq_false, Bool.false_eq_true, if_false]
                  refine (Parsed.right_setChan (Nat.zero_le _)).trans ?_
                  simp [Except.isOk, Except.toBool]

/-! ### The parsers that look for the closing brace -/

lemma dataResult_eq_formatError {data error : Bytes} {apiError : PubnubRes}
    (hapi : apiError ≠ .formatError) :
    r.dataResult data error apiError = .formatError ↔ ¬ r.DataParses data error := by
  rw [Reply.dataResult, Reply.DataParses]
  by_cases hclosing : r.memory.byte r.closing = 125
  · rw [if_neg (not_not.mpr hclosing)]
    cases hdenied : pbjsonValueForFieldFound r.memory r.element (ascii "status") (ascii "403") with
    | true => simp [hclosing]
    | false =>
        rw [if_neg Bool.false_ne_true]
        cases hdata : pbjsonGetObjectValue r.memory r.element data with
        | ok found => simp [hclosing, Except.isOk, Except.toBool]
        | error e =>
            by_cases hmissing : e = .keyNotFound
            · rw [hmissing]
              cases herror : pbjsonGetObjectValue r.memory r.element error with
              | ok found => simp [hclosing, hapi, Except.isOk, Except.toBool]
              | error e => simp [Except.isOk, Except.toBool]
            · cases e <;> simp_all [Except.isOk, Except.toBool]
  · rw [if_pos hclosing]
    simp [hclosing]

/-- The end of a reply that begins like an object, as the newer parsers set it. -/
lemma opens_stop (h : r.opens = true) :
    0 < (r.replylen + 1).toNat ∧ (r.replylen + 1).toNat ≤ r.len + 1 := by
  rw [Reply.opens, Bool.and_eq_true, decide_eq_true_eq] at h
  have hle := r.replylen_le
  omega

lemma dataRight_iff {data error : Bytes} {apiError : PubnubRes} (hapi : apiError ≠ .formatError) :
    (r.dataParser data error apiError).Right r.len w ↔ DataClear data error r w := by
  rw [Reply.dataParser, DataClear]
  by_cases hopens : r.opens = true
  · obtain ⟨hpos, hstop⟩ := opens_stop hopens
    rw [if_neg (by simp [hopens]), if_pos hopens, Parsed.right_setMsg hstop]
    rw [dataResult_eq_formatError hapi]
    constructor
    · intro hempty
      by_contra hno
      have hle := hempty hno
      omega
    · intro hparses hno
      exact absurd hparses hno
  · rw [if_neg hopens, if_pos (by simpa using hopens), Parsed.right_untouched]

/-- A parser that sets the end of the messages alone, over a reply that begins like an object. -/
lemma setStopRight_iff (h : r.opens = true) (result : PubnubRes) :
    (Parsed.mk result (.setStop (r.replylen + 1).toNat) .keep none none r.memory).Right r.len w ↔
      (w.msg.ofs = 0 ∧ result ≠ .formatError) ∧ w.chan.Idle r.len :=
  Parsed.right_setStop (opens_stop h).1 (opens_stop h).2

lemma tokenRight_iff {apiError : PubnubRes} (hapi : apiError ≠ .formatError) :
    (r.tokenParser apiError).Right r.len w ↔ TokenClear r w := by
  rw [Reply.tokenParser, TokenClear]
  by_cases hopens : r.opens = true
  · rw [if_neg (by simp [hopens]), if_pos hopens]
    rw [setStopRight_iff hopens, Ne, dataResult_eq_formatError hapi]
    tauto
  · rw [if_neg hopens, if_pos (by simpa using hopens), Parsed.right_untouched]

lemma fetchHistoryRight_iff :
    (pbccParseFetchHistoryResponse r).Right r.len w ↔ FetchHistoryClear r w := by
  rw [pbccParseFetchHistoryResponse, FetchHistoryClear]
  by_cases hopens : r.opens = true
  · rw [if_neg (by simp [hopens]), if_pos hopens]
    refine (setStopRight_iff hopens _).trans ?_
    by_cases hclosing : r.memory.byte r.closing = 125
    · rw [if_neg (not_not.mpr hclosing)]
      split
      · simp [hclosing]
      · split <;> simp [hclosing]
    · simp [hclosing]
  · rw [if_neg hopens, if_pos (by simpa using hopens), Parsed.right_untouched]

/-! ### Subscribe -/

lemma findStringStartBelow_lt (m : Memory) (n : Nat) : findStringStartBelow m n < n := by
  induction n with
  | zero => simp [findStringStartBelow]
  | succ n ih =>
      rw [findStringStartBelow]
      split
      · omega
      · split
        · split <;> omega
        · omega

lemma findStringStart_lt {m : Memory} {len : Int} (h : 0 ≤ findStringStart m len) :
    findStringStart m len < len := by
  have hlt := findStringStartBelow_lt m len.toNat
  rw [findStringStart] at h ⊢
  omega

/-- What is found ends inside the reply, and a channel list is not empty. -/
def LastArguments.Fits (len : Nat) : LastArguments → Prop
  | .absent | .onlyChannels _ => True
  | .onlyGroups _ chan => ¬ chan.Empty ∧ chan.stop ≤ len + 1
  | .found a => a.chan.stop ≤ len + 1 ∧ (a.i - 2).toNat ≤ len + 1

lemma fits_lastArguments : r.lastArguments.Fits r.len := by
  have hlen : r.arrayLen ≤ r.replylen := by
    rw [Reply.arrayLen]
    split <;> omega
  have hstop : (r.arrayLen - 1).toNat ≤ r.len + 1 := toNat_le_of_le_replylen (by omega)
  rw [Reply.lastArguments]
  generalize r.arrayLen = replylen at hlen hstop
  extract_lets i m m' chan j m'' k
  split
  · trivial
  split
  · trivial
  have hi : i < replylen - 2 := findStringStart_lt (by omega)
  split
  · split
    · trivial
    have hj : j < i - 2 := findStringStart_lt (by omega)
    split
    · split
      · refine ⟨?_, hstop⟩
        show ¬ (replylen - 1).toNat ≤ (i + 1).toNat
        omega
      · have hk : k < j - 2 := findStringStart_lt (by omega)
        have hle : k - 2 ≤ r.replylen + 1 := by omega
        exact ⟨hstop, toNat_le_of_le_replylen hle⟩
    · have hle : j - 2 ≤ r.replylen + 1 := by omega
      exact ⟨hstop, toNat_le_of_le_replylen hle⟩
  · have hle : i - 2 ≤ r.replylen + 1 := by omega
    exact ⟨Nat.zero_le _, toNat_le_of_le_replylen hle⟩

lemma subscribeRight_iff : (pbccParseSubscribeResponse r).Right r.len w ↔ SubscribeClear r w := by
  rw [pbccParseSubscribeResponse, SubscribeClear]
  by_cases hlen : r.replylen < 2
  · rw [if_pos hlen, if_pos (.inl hlen), Parsed.right_untouched]
  by_cases hdenied : r.denied = true
  · rw [if_neg hlen, if_pos hdenied, if_pos (.inr (.inl hdenied)), Parsed.right_untouched]
  by_cases hstatus : r.fieldIs (ascii "status") (ascii "400") = true
  · rw [if_neg hlen, if_neg hdenied, if_pos hstatus, if_pos (.inr (.inr hstatus)),
      Parsed.right_untouched]
  rw [if_neg hlen, if_neg hdenied, if_neg hstatus,
    if_neg (not_or.mpr ⟨hlen, not_or.mpr ⟨hdenied, hstatus⟩⟩)]
  have hspec := fits_lastArguments (r := r)
  cases hlast : r.lastArguments with
  | absent => exact Parsed.right_untouched r _
  | onlyChannels m =>
      refine (Parsed.right_setChan (Nat.zero_le _)).trans ?_
      exact and_iff_left fun _ => OffsetWindow.empty_cleared
  | onlyGroups m chan =>
      rw [hlast] at hspec
      refine (Parsed.right_setChan hspec.2).trans ?_
      exact iff_of_false (fun h => hspec.1 (h.2 rfl)) id
  | found a =>
      rw [hlast] at hspec
      obtain ⟨hchan, hmsg⟩ := hspec
      show Parsed.Right (if 20 ≤ a.timeTokenLength then _ else _) _ _ ↔ a.Clear r w
      rw [SubscribeArguments.Clear]
      split
      · rw [Parsed.right_setChan hchan]
        constructor
        · rintro ⟨hidle, hempty⟩
          exact ⟨hempty rfl, hidle⟩
        · rintro ⟨hempty, hidle⟩
          exact ⟨hidle, fun _ => hempty⟩
      · rw [Parsed.right_set hmsg hchan]
        have hshort : (a.i - 2).toNat ≤ 2 ↔ a.i ≤ 4 := by omega
        rw [hshort]
        cases a.split.2 with
        | true => simp
        | false => simp

lemma subscribeV2Right_iff :
    (pbccParseSubscribeV2Response r).Right r.len w ↔ SubscribeV2Clear r w := by
  rw [pbccParseSubscribeV2Response, SubscribeV2Clear]
  by_cases hlen : r.len < minSubscribeV2ResponseLength
  · rw [if_pos hlen, if_pos (.inl hlen), Parsed.right_untouched]
  by_cases hdenied : r.denied = true
  · rw [if_neg hlen, if_pos hdenied, if_pos (.inr (.inl hdenied)), Parsed.right_untouched]
  by_cases hstatus : r.fieldIs (ascii "status") (ascii "400") = true
  · rw [if_neg hlen, if_neg hdenied, if_pos hstatus, if_pos (.inr (.inr (.inl hstatus))),
      Parsed.right_untouched]
  by_cases hmalformed : r.malformedV2 = true
  · rw [if_neg hlen, if_neg hdenied, if_neg hstatus, if_pos hmalformed,
      if_pos (.inr (.inr (.inr (.inl hmalformed)))), Parsed.right_untouched]
  rw [if_neg hlen, if_neg hdenied, if_neg hstatus, if_neg hmalformed]
  cases htt : r.timetokenAndRegion with
  | error e =>
      rw [if_pos (.inr (.inr (.inr (.inr rfl))))]
      exact and_congr WindowWrite.right_keep WindowWrite.right_keep
  | ok read =>
      rw [if_neg (not_or.mpr ⟨hlen, not_or.mpr ⟨hdenied, not_or.mpr ⟨hstatus,
        not_or.mpr ⟨hmalformed, by simp [Except.isOk, Except.toBool]⟩⟩⟩⟩), Reply.has]
      cases hm : pbjsonGetObjectValue r.memory r.whole (ascii "m") with
      | error e =>
          refine (Parsed.right_setChan (Nat.zero_le _)).trans ?_
          simp [Except.isOk, Except.toBool, OffsetWindow.empty_cleared]
      | ok found =>
          refine (Parsed.right_setMsg (found_stop hm)).trans ?_
          simp [Except.isOk, Except.toBool]

end Parsers

/-- **The windows are right after a reply exactly if its parser was clear.** -/
theorem parsedRight_iff_clear (t : Pbtt) (r : Reply) (w : Windows) :
    (aParseResponse t r).Right r.len w ↔ ParserClear t r w := by
  cases t with
  | none => exact Parsed.right_untouched r _
  | subscribe => exact subscribeRight_iff
  | publish | signal => exact publishRight_iff
  | time | history => exact simpleRight_iff
  | leave | herenow | globalHerenow | wherenow | setState | stateGet | heartbeat =>
      exact presenceRight_iff
  | removeChannelGroup | removeChannelFromGroup | addChannelToGroup | listChannelGroup =>
      exact channelRegistryRight_iff
  | subscribeV2 => exact subscribeV2Right_iff
  | messageCounts => exact messageCountsRight_iff
  | deleteMessages => exact deleteMessagesRight_iff
  | getallUuidmetadata | setUuidmetadata | getUuidmetadata | deleteUuidmetadata
  | getallChannelmetadata | setChannelmetadata | getChannelmetadata | removeChannelmetadata
  | getMemberships | setMemberships | removeMemberships | getMembers | addMembers
  | setMembers | removeMembers | addAction | removeAction | getActions =>
      exact dataRight_iff (by decide)
  | historyWithActions => exact dataRight_iff (by decide)
  | grantToken | revokeToken => exact tokenRight_iff (by decide)
  | fetchHistory => exact fetchHistoryRight_iff

instance (t : Pbtt) (r : Reply) (w : Windows) : Decidable (ParserClear t r w) :=
  decidable_of_iff _ (parsedRight_iff_clear t r w)

end PubNub
