import PubNubCore.Replies.Splitting

/-!
# The reply of the first subscribe

A reply of subscribe is an array: the messages, the time token, and behind it the channels the
messages came in on, with the channel groups in front of them where there are any.
`pbcc_parse_subscribe_response` takes it apart from its end.  It writes a NUL over each quote that
closes a string, and over the commas between the channels and between the messages, and the pieces
are then handed out one after the other.

`subscribe_reply_kept_iff` says for which data the pieces are what the reply was made of.  The loop
over the commas between the channels does not look at the first byte of the list, so that an empty
name at the front stays together with the name behind it.
-/

namespace PubNub

open JsonText

/-! ## The data and their reply -/

/-- The strings behind the time token. -/
inductive SubscribeLists
  | none
  | channels (names : List Bytes)
  | groups (list : Bytes) (names : List Bytes)

namespace SubscribeLists

/-- The names of the channels, where the reply has some. -/
def names : SubscribeLists → Option (List Bytes)
  | none => Option.none
  | channels names => some names
  | groups _ names => some names

/-- What the reply says about them. -/
def text : SubscribeLists → Bytes
  | none => []
  | channels names => 44 :: 34 :: (joined 44 names ++ [34])
  | groups list names => 44 :: 34 :: (list ++ 34 :: 44 :: 34 :: (joined 44 names ++ [34]))

/-- A name of a channel has neither a quote nor a comma in it, and the channel groups have no
    quote. -/
def Plain : SubscribeLists → Prop
  | none => True
  | channels names => ∀ name ∈ names, ∀ c ∈ name, c ≠ 0 ∧ c ≠ 34 ∧ c ≠ 44
  | groups list names => (∀ c ∈ list, c ≠ 0 ∧ c ≠ 34) ∧
      ∀ name ∈ names, ∀ c ∈ name, c ≠ 0 ∧ c ≠ 34 ∧ c ≠ 44

end SubscribeLists

/-- What a reply of subscribe is made of. -/
structure SubscribeData where
  messages : List Bytes
  timetoken : Bytes
  lists : SubscribeLists
  isJsonText : ∀ message ∈ messages, IsJsonText message
  timetoken_short : timetoken.length < 20
  zero_not_mem_timetoken : 0 ∉ timetoken
  plain : lists.Plain

namespace SubscribeData

variable (d : SubscribeData)

def text : Bytes :=
  91 :: 91 :: (joined 44 d.messages ++
    93 :: 44 :: 34 :: (d.timetoken ++ 34 :: (d.lists.text ++ [93])))

end SubscribeData

/-- **The data are kept**: the reply is parsed, and handed out is what it was made of. -/
structure Parsed.Keeps (p : Parsed) (w : Windows) (d : SubscribeData) : Prop where
  ok : p.result = .ok
  messages : HandsOut p.httpReply (p.apply w).msg d.messages
  channels : HandsOut p.httpReply (p.apply w).chan (d.lists.names.getD [])
  timetoken : p.timetoken = some d.timetoken

/-! ## Where the strings of the reply are -/

section Strings

variable {m : Memory} {p i k : Int} {t u : Bytes}

/-- The loop of `find_string_start` goes down to the quote that opens the string. -/
lemma findStringStartBelow_eq {p n : Nat} (hcomma : m.byte p = 44) (hquote : m.byte (p + 1) = 34)
    (hplain : ∀ j : Int, p + 1 < j → j < p + 2 + n → m.byte j ≠ 34) :
    findStringStartBelow m (p + 2 + n) = p + 1 := by
  induction n with
  | zero =>
      have hplace : ((p + 1 : Nat) : Int) = p + 1 := by omega
      rw [findStringStartBelow, if_neg (by omega), hplace, if_pos hquote]
      have hbefore : ((p : Int) + 1 - 1) = p := by omega
      rw [hbefore, if_pos hcomma]
  | succ n ih =>
      have hplace : p + 2 + (n + 1) = p + 2 + n + 1 := by omega
      rw [hplace, findStringStartBelow, if_neg (by omega), if_neg (hplain _ (by omega) (by omega))]
      exact ih fun j hlow hhigh => hplain j hlow (by omega)

lemma findStringStart_reads (hp : 0 ≤ p) (h : m.Reads p (44 :: 34 :: t)) (ht : 34 ∉ t) :
    findStringStart m (p + 2 + t.length) = p + 1 := by
  obtain ⟨p, rfl⟩ := Int.eq_ofNat_of_zero_le hp
  obtain ⟨hcomma, hquote, htext⟩ := h
  have hplace : ((p : Int) + 2 + t.length).toNat = p + 2 + t.length := by omega
  rw [findStringStart, hplace]
  refine findStringStartBelow_eq hcomma hquote fun j hlow hhigh hbyte => ht ?_
  rw [← hbyte]
  exact Memory.Reads.byte_mem htext (by omega) (by omega)

/-- What it comes to has no quote in it. -/
lemma findStringStartBelow_plain {n : Nat} (h : 0 ≤ findStringStartBelow m n) {j : Int}
    (hlow : findStringStartBelow m n < j) (hhigh : j < n) : m.byte j ≠ 34 := by
  induction n with
  | zero => omega
  | succ n ih =>
      rw [findStringStartBelow] at h hlow
      split at h
      · omega
      · rename_i hn
        rw [if_neg hn] at hlow
        split at h
        · rename_i hquote
          rw [if_pos hquote] at hlow
          split at h
          · rename_i hcomma
            rw [if_pos hcomma] at hlow
            omega
          · omega
        · rename_i hquote
          rw [if_neg hquote] at hlow
          by_cases hj : j = n
          · rw [hj]
            exact hquote
          · exact ih h hlow (by omega)

lemma findStringStart_plain {len j : Int} (h : 0 ≤ findStringStart m len)
    (hlow : findStringStart m len < j) (hhigh : j < len) : m.byte j ≠ 34 :=
  findStringStartBelow_plain h hlow (by omega)

end Strings

/-! ## The last arguments -/

/-- A string in front of which there is a comma, and the quote that closes it. -/
lemma Memory.reads_quoted {m : Memory} {p q : Int} {t : Bytes}
    (h : m.Reads p (44 :: 34 :: (t ++ [34]))) (hq : p + 1 + 1 + t.length = q) :
    m.Reads p (44 :: 34 :: t) ∧ m.byte q = 34 := by
  obtain ⟨hcomma, hquote, hrest⟩ := h
  obtain ⟨htext, hclosing, -⟩ := Memory.reads_append.mp hrest
  rw [hq] at hclosing
  exact ⟨⟨hcomma, hquote, htext⟩, hclosing⟩

namespace Reply

variable {r : Reply} {a q : Int} {tt cs gs : Bytes}

/-- The time token is the only string. -/
lemma lastArguments_alone (hlen : r.arrayLen = q + 2) (hopen : r.memory.byte 0 = 91)
    (hclose : r.memory.byte (q + 1) = 93) (hend : r.memory.byte q = 34) (ha : 0 ≤ a)
    (hbefore : r.memory.byte a ≠ 34) (htt : r.memory.Reads (a + 1) (44 :: 34 :: tt))
    (hquote : 34 ∉ tt) (hq : q = a + 3 + tt.length) :
    r.lastArguments = .found ⟨r.memory.set q 0, .cleared, q, a + 2⟩ := by
  have hlast : q + 2 - 1 = q + 1 := by omega
  have hbeforeLast : q + 2 - 2 = q := by omega
  have hplace : a + 1 + 2 + tt.length = q := by omega
  have hstart := findStringStart_reads (by omega) htt hquote
  rw [hplace] at hstart
  have hi : a + 1 + 1 = a + 2 := by omega
  have hback : a + 2 - 2 = a := by omega
  rw [hi] at hstart
  have hbyte : (r.memory.set q 0).byte a ≠ 34 := by
    rw [Memory.byte_set_of_ne (by omega) (by omega)]
    exact hbefore
  rw [lastArguments, hlen]
  simp only [hlast, hbeforeLast, hopen, hclose, hend, hstart, hback]
  rw [if_neg (by simp), if_neg (by omega), if_neg hbyte]

/-- The reply with the list of channels behind the place `q` cut off and split. -/
def withoutChannels (r : Reply) (q last : Int) : Memory :=
  ((r.memory.set last 0).splitChannels (q + 2) last).set q 0

/-- What lies in front of the list of channels stays. -/
lemma reads_withoutChannels {last p : Int} {t : Bytes} (h : r.memory.Reads p t) (hp : 0 ≤ p)
    (hq : p + t.length ≤ q) (hlast : q ≤ last) : (r.withoutChannels q last).Reads p t :=
  ((h.set (by omega) (.inr (by omega))).splitChannels hp (.inl (by omega))).set (by omega)
    (.inr hq)

/-- There is a list of channels, and a string in front of it that ends at the place `q`. -/
lemma lastArguments_list {last : Int} (hlen : r.arrayLen = last + 2)
    (hopen : r.memory.byte 0 = 91) (hclose : r.memory.byte (last + 1) = 93)
    (hend : r.memory.byte last = 34) (hq : 0 ≤ q) (hbefore : r.memory.byte q = 34)
    (hcs : r.memory.Reads (q + 1) (44 :: 34 :: cs)) (hquote : 34 ∉ cs)
    (hlast : last = q + 3 + cs.length) :
    r.lastArguments =
      let m := r.withoutChannels q last
      let chan : OffsetWindow := ⟨(q + 3).toNat, (last + 1).toNat⟩
      if findStringStart m q < 0 then .onlyChannels m
      else if m.byte (findStringStart m q - 2) = 34 then
        let m' := m.set (findStringStart m q - 2) 0
        if findStringStart m' (findStringStart m q - 2) < 0 then .onlyGroups m' chan
        else .found ⟨m', chan, findStringStart m q - 2,
          findStringStart m' (findStringStart m q - 2)⟩
      else .found ⟨m, chan, q, findStringStart m q⟩ := by
  have hlastByte : last + 2 - 1 = last + 1 := by omega
  have hlastQuote : last + 2 - 2 = last := by omega
  have hplace : q + 1 + 2 + cs.length = last := by omega
  have hstart := findStringStart_reads (by omega) hcs hquote
  rw [hplace] at hstart
  have hi : q + 1 + 1 = q + 2 := by omega
  have hback : q + 2 - 2 = q := by omega
  have hfirst : q + 2 + 1 = q + 3 := by omega
  rw [hi] at hstart
  have hbyte : (r.memory.set last 0).byte q = 34 := by
    rw [Memory.byte_set_of_ne (by omega) (by omega)]
    exact hbefore
  rw [lastArguments, hlen]
  simp only [hlastByte, hlastQuote, hopen, hclose, hend, hstart, hback, hfirst]
  rw [if_neg (by simp), if_neg (by omega), if_pos hbyte]
  rfl

/-- The string in front of the list of channels is the time token. -/
lemma lastArguments_channels {last : Int} (hlen : r.arrayLen = last + 2)
    (hopen : r.memory.byte 0 = 91) (hclose : r.memory.byte (last + 1) = 93)
    (hend : r.memory.byte last = 34) (ha : 0 ≤ a) (hbefore : r.memory.Reads a [93])
    (htt : r.memory.Reads (a + 1) (44 :: 34 :: (tt ++ [34]))) (hquote : 34 ∉ tt)
    (hq : q = a + 3 + tt.length) (hcs : r.memory.Reads (q + 1) (44 :: 34 :: cs))
    (hcsQuote : 34 ∉ cs) (hlast : last = q + 3 + cs.length) :
    r.lastArguments = .found ⟨r.withoutChannels q last, ⟨(q + 3).toNat, (last + 1).toNat⟩, q,
      a + 2⟩ := by
  obtain ⟨hstring, hclosing⟩ := Memory.reads_quoted htt (by omega : _ = q)
  have hstring' : (r.withoutChannels q last).Reads (a + 1) (44 :: 34 :: tt) :=
    reads_withoutChannels hstring (by omega) (by simp only [List.length_cons]; omega) (by omega)
  have hbefore' : (r.withoutChannels q last).Reads a [93] :=
    reads_withoutChannels hbefore ha (by simp only [List.length_singleton]; omega) (by omega)
  have hstart := findStringStart_reads (by omega) hstring' hquote
  have hplace : a + 1 + 2 + tt.length = q := by omega
  rw [hplace] at hstart
  have hback : a + 1 + 1 - 2 = a := by omega
  have hi : a + 1 + 1 = a + 2 := by omega
  rw [lastArguments_list hlen hopen hclose hend (by omega) hclosing hcs hcsQuote hlast]
  simp only [hstart, hback, hbefore'.1]
  rw [if_neg (by omega), if_neg (by decide), hi]

/-- There are channel groups between the time token and the list of channels. -/
lemma lastArguments_groups {last q' : Int} (hlen : r.arrayLen = last + 2)
    (hopen : r.memory.byte 0 = 91) (hclose : r.memory.byte (last + 1) = 93)
    (hend : r.memory.byte last = 34) (ha : 0 ≤ a)
    (htt : r.memory.Reads (a + 1) (44 :: 34 :: (tt ++ [34]))) (hquote : 34 ∉ tt)
    (hq : q = a + 3 + tt.length) (hgs : r.memory.Reads (q + 1) (44 :: 34 :: (gs ++ [34])))
    (hgsQuote : 34 ∉ gs) (hq' : q' = q + 3 + gs.length)
    (hcs : r.memory.Reads (q' + 1) (44 :: 34 :: cs)) (hcsQuote : 34 ∉ cs)
    (hlast : last = q' + 3 + cs.length) :
    r.lastArguments = .found ⟨(r.withoutChannels q' last).set q 0,
      ⟨(q' + 3).toNat, (last + 1).toNat⟩, q, a + 2⟩ := by
  obtain ⟨hgroups, hclosing'⟩ := Memory.reads_quoted hgs (by omega : _ = q')
  obtain ⟨hstring, hclosing⟩ := Memory.reads_quoted htt (by omega : _ = q)
  have hgroups' : (r.withoutChannels q' last).Reads (q + 1) (44 :: 34 :: gs) :=
    reads_withoutChannels hgroups (by omega) (by simp only [List.length_cons]; omega) (by omega)
  have hclosing'' : (r.withoutChannels q' last).Reads q [34] :=
    reads_withoutChannels ⟨hclosing, trivial⟩ (by omega)
      (by simp only [List.length_singleton]; omega) (by omega)
  have hstring' : (r.withoutChannels q' last).Reads (a + 1) (44 :: 34 :: tt) :=
    reads_withoutChannels hstring (by omega) (by simp only [List.length_cons]; omega) (by omega)
  have hstring'' : ((r.withoutChannels q' last).set q 0).Reads (a + 1) (44 :: 34 :: tt) :=
    hstring'.set (by omega) (.inr (by simp only [List.length_cons]; omega))
  have hstart := findStringStart_reads (by omega) hgroups' hgsQuote
  have hstart' := findStringStart_reads (by omega) hstring'' hquote
  have hplace : q + 1 + 2 + gs.length = q' := by omega
  have hplace' : a + 1 + 2 + tt.length = q := by omega
  have hback : q + 1 + 1 - 2 = q := by omega
  have hi : a + 1 + 1 = a + 2 := by omega
  rw [hplace] at hstart
  rw [hplace', hi] at hstart'
  rw [lastArguments_list hlen hopen hclose hend (by omega) hclosing' hcs hcsQuote hlast]
  simp only [hstart, hback, hclosing''.1, hstart']
  rw [if_neg (by omega), if_pos trivial, if_neg (by omega)]

/-- Whatever the reply is: the text that is taken for the time token is ended, and has no quote in
    it. -/
lemma found_plain {args : SubscribeArguments} (h : r.lastArguments = .found args) :
    args.httpReply.byte args.previous = 0 ∧
      ∀ j, args.i < j → j < args.previous → args.httpReply.byte j ≠ 34 := by
  rw [lastArguments] at h
  dsimp only at h
  split at h
  · cases h
  · split at h
    · cases h
    · rename_i hi
      have hlt := findStringStart_lt (Int.not_lt.mp hi)
      split at h
      · split at h
        · cases h
        · rename_i hj
          have hlt' := findStringStart_lt (Int.not_lt.mp hj)
          split at h
          · split at h
            · cases h
            · rename_i hk
              have hlt'' := findStringStart_lt (Int.not_lt.mp hk)
              cases h
              exact ⟨Memory.byte_set_zero (by omega), fun j => findStringStart_plain (by omega)⟩
          · cases h
            exact ⟨Memory.byte_set_zero (by omega), fun j => findStringStart_plain (by omega)⟩
      · cases h
        refine ⟨Memory.byte_set_zero (by omega), fun j hlow hhigh => ?_⟩
        dsimp only at hlow hhigh
        rw [Memory.byte_set_of_ne (by omega) (by omega)]
        exact findStringStart_plain (by omega) hlow hhigh

/-- **The time token that is stored has no quote in it.** -/
lemma timetoken_plain (h : (pbccParseSubscribeResponse r).timetoken = some tt) : 34 ∉ tt := by
  rw [pbccParseSubscribeResponse] at h
  split at h
  · cases h
  · split at h
    · cases h
    · split at h
      · cases h
      · split at h
        · cases h
        · cases h
        · cases h
        · rename_i args hfound
          obtain ⟨hend, hplain⟩ := found_plain hfound
          split at h
          · cases h
            exact List.not_mem_nil
          · cases h
            intro hquote
            have hmem := (List.takeWhile_prefix _).subset hquote
            simp only [Memory.text, List.mem_map, List.mem_range] at hmem
            obtain ⟨k, hk, hbyte⟩ := hmem
            by_cases hlast : args.i + 1 + k = args.previous
            · rw [hlast, hend] at hbyte
              cases hbyte
            · exact hplain _ (by omega) (by omega) hbyte

end Reply

/-! ## The reply of some data -/

section Data

variable {d : SubscribeData} {r : Reply}

/-- An array has no members. -/
lemma fieldIs_of_array (hopen : r.memory.byte 0 = 91) (name value : Bytes) :
    r.fieldIs name value = false := by
  have hplace : pbjsonSkipWhitespace r.memory 0 r.replylen = 0 := by
    refine Memory.scan_of_none ?_
    rw [hopen]
    rfl
  have hnone : ∀ found, pbjsonGetObjectValue r.memory r.whole name ≠ .ok found := by
    intro found
    simp only [pbjsonGetObjectValue, Reply.whole, hplace, hopen]
    split
    · rintro ⟨⟩
    · rw [if_pos (by decide)]
      rintro ⟨⟩
  rw [Reply.fieldIs, pbjsonValueForFieldFound]
  cases hvalue : pbjsonGetObjectValue r.memory r.whole name with
  | error e => rfl
  | ok found => exact absurd hvalue (hnone found)

/-- Where the messages end, and where the time token does. -/
def SubscribeData.messagesEnd (d : SubscribeData) : Int := 2 + (joined 44 d.messages).length

def SubscribeData.timetokenEnd (d : SubscribeData) : Int := d.messagesEnd + 3 + d.timetoken.length

lemma messagesEnd_eq (d : SubscribeData) : d.messagesEnd = 2 + (joined 44 d.messages).length := rfl

lemma timetokenEnd_eq (d : SubscribeData) :
    d.timetokenEnd = d.messagesEnd + 3 + d.timetoken.length := rfl

attribute [irreducible] SubscribeData.messagesEnd SubscribeData.timetokenEnd

/-- What lies where in the reply. -/
structure Holds (r : Reply) (d : SubscribeData) : Prop where
  opens : r.memory.byte 0 = 91
  messages : r.memory.Reads 2 (joined 44 d.messages)
  messagesEnd : r.memory.byte d.messagesEnd = 93
  timetoken : r.memory.Reads (d.messagesEnd + 1) (44 :: 34 :: (d.timetoken ++ [34]))
  lists : r.memory.Reads (d.timetokenEnd + 1) (d.lists.text ++ [93])

lemma holds_of_body (h : r.body = d.text) : Holds r d := by
  have hcells : r.memory.cells = [] ++ (d.text ++ 0 :: r.behind) := by
    rw [← h]
    rfl
  have hreads : r.memory.Reads 0 d.text := Memory.reads_cells hcells
  have hrest : ∀ t : Bytes, (d.timetoken ++ 34 :: t) = (d.timetoken ++ [34]) ++ t := by simp
  obtain ⟨hopens, -, htext⟩ := hreads
  obtain ⟨hmessages, hend, hcomma, hquote, hstrings⟩ := Memory.reads_append.mp htext
  rw [hrest] at hstrings
  obtain ⟨htimetoken, hlists⟩ := Memory.reads_append.mp hstrings
  have hplace : d.messagesEnd = 0 + 1 + 1 + (joined 44 d.messages).length := messagesEnd_eq d
  have hplace' : d.timetokenEnd + 1 = 0 + 1 + 1 + (joined 44 d.messages).length + 1 + 1 + 1 +
      ((d.timetoken ++ [34]).length : Int) := by
    rw [timetokenEnd_eq, hplace, List.length_append, List.length_singleton]
    omega
  refine ⟨hopens, hmessages, ?_, ⟨?_, ?_, ?_⟩, ?_⟩
  · rw [hplace]
    exact hend
  · rw [hplace]
    exact hcomma
  · rw [hplace]
    exact hquote
  · rw [hplace]
    exact htimetoken
  · rw [hplace']
    exact hlists

/-- How the parser takes the reply of some data apart. -/
structure TakenApart (d : SubscribeData) (args : SubscribeArguments) : Prop where
  i : args.i = d.messagesEnd + 2
  previous : args.previous = d.timetokenEnd
  messages : args.httpReply.Reads 2 (joined 44 d.messages)
  timetoken : args.httpReply.Reads (d.messagesEnd + 3) (d.timetoken ++ [0])
  alone : d.lists.names = none → args.chan = .cleared
  channels : ∀ names, d.lists.names = some names → ∃ ofs : Nat, d.messagesEnd < ofs ∧
    args.chan = ⟨ofs, ofs + (joined 44 names).length + 1⟩ ∧
    args.httpReply.Reads ofs (splitBehindFirst (joined 44 names) ++ [0])
  room : 2 ≤ args.httpReply.cells.length

lemma length_replyText : (d.text.length : Int) = d.timetokenEnd + 2 + d.lists.text.length := by
  simp only [SubscribeData.text, timetokenEnd_eq, messagesEnd_eq,
    List.length_cons, List.length_append, List.length_nil]
  omega

lemma arrayLen_of_body (h : r.body = d.text) (hlen : d.text.length < 2 ^ 31)
    (hclose : r.memory.byte (d.text.length - 1) = 93) : r.arrayLen = d.text.length := by
  have hreply : r.replylen = d.text.length := by
    rw [Reply.replylen, Reply.len, h]
    omega
  rw [Reply.arrayLen, hreply, if_neg]
  exact fun hbyte => hbyte.1 hclose

lemma length_set (m : Memory) (i : Int) (b : UInt8) :
    (m.set i b).cells.length = m.cells.length :=
  List.length_set

lemma length_splitChannels (m : Memory) (i k : Int) :
    (m.splitChannels i k).cells.length = m.cells.length :=
  List.length_mapIdx

lemma length_withoutChannels {q last : Int} :
    (r.withoutChannels q last).cells.length = r.memory.cells.length := by
  rw [Reply.withoutChannels, length_set, length_splitChannels, length_set]

lemma length_splitBehindFirst (t : Bytes) : (splitBehindFirst t).length = t.length := by
  cases t with
  | nil => rfl
  | cons c t => simp [splitBehindFirst]

/-- The list of channels, once it is split. -/
lemma reads_channels {q last : Int} {cs : Bytes} (hq : 0 ≤ q) (hlast : last = q + 3 + cs.length)
    (hcs : r.memory.Reads (q + 1) (44 :: 34 :: cs)) :
    (r.withoutChannels q last).Reads (q + 3) (splitBehindFirst cs ++ [0]) := by
  obtain ⟨-, -, htext⟩ := hcs
  have hplace : q + 1 + 1 + 1 = q + 2 + 1 := by omega
  have hplace' : q + 2 + 1 = q + 3 := by omega
  rw [hplace] at htext
  have hset : (r.memory.set last 0).Reads (q + 2 + 1) cs :=
    Memory.Reads.set htext (by omega) (.inr (by omega))
  have hsplit := Memory.reads_splitChannels hset (by omega) (by omega : q + 2 + cs.length ≤ last)
  rw [hplace'] at hsplit
  rw [Reply.withoutChannels]
  refine Memory.Reads.set (Memory.reads_append.mpr ⟨hsplit, ?_, trivial⟩) hq (.inl (by omega))
  rw [length_splitBehindFirst, ← hlast, Memory.byte_splitChannels (by omega),
    Memory.byte_set_zero (by omega), ite_self]

lemma mem_joined_names {names : List Bytes}
    (h : ∀ name ∈ names, ∀ c ∈ name, c ≠ 0 ∧ c ≠ 34 ∧ c ≠ 44) : 34 ∉ joined 44 names := by
  intro hmem
  obtain hc | ⟨name, hname, hc⟩ := mem_joined hmem
  · cases hc
  · exact (h name hname 34 hc).2.1 rfl

/-- The reply is taken apart. -/
lemma takenApart (h : r.body = d.text) (hlen : d.text.length < 2 ^ 31) (hquote : 34 ∉ d.timetoken) :
    ∃ args, r.lastArguments = .found args ∧ TakenApart d args := by
  obtain ⟨hopens, hmessages, hmessagesEnd, htimetoken, hlists⟩ := holds_of_body h
  have hlength := length_replyText (d := d)
  have hpos : 0 ≤ d.messagesEnd := by
    rw [messagesEnd_eq]
    omega
  have hend := timetokenEnd_eq d
  have hmessagesEnd' := messagesEnd_eq d
  have hroom : 2 ≤ r.memory.cells.length := by
    change 2 ≤ (r.body ++ 0 :: r.behind).length
    rw [h, List.length_append]
    omega
  obtain ⟨hstring, hclosing⟩ := Memory.reads_quoted htimetoken (by omega : _ = d.timetokenEnd)
  have htext : r.memory.Reads (d.messagesEnd + 1 + 1 + 1) d.timetoken := hstring.2.2
  have hplace : d.messagesEnd + 1 + 1 + 1 = d.messagesEnd + 3 := by omega
  rw [hplace] at htext
  cases hcase : d.lists with
  | none =>
      rw [hcase, SubscribeLists.text] at hlists hlength
      have hlast : (d.text.length : Int) = d.timetokenEnd + 2 := by simpa using hlength
      have harray := arrayLen_of_body h hlen (by
        have hbyte : (d.text.length : Int) - 1 = d.timetokenEnd + 1 := by omega
        rw [hbyte]
        exact hlists.1)
      rw [hlast] at harray
      refine ⟨_, Reply.lastArguments_alone harray hopens hlists.1 hclosing hpos ?_ hstring hquote
        hend, ?_⟩
      · rw [hmessagesEnd]
        decide
      · refine ⟨rfl, rfl, ?_, ?_, fun _ => rfl, ?_, ?_⟩
        · exact Memory.Reads.set hmessages (by omega) (.inr (by omega))
        · refine Memory.reads_append.mpr ⟨?_, ?_, trivial⟩
          · exact Memory.Reads.set htext (by omega) (.inr (by omega))
          · rw [← hend]
            exact Memory.byte_set_zero (by omega)
        · rw [hcase]
          rintro names ⟨⟩
        · rw [length_set]
          exact hroom
  | channels names =>
      have hnames := d.plain
      rw [hcase, SubscribeLists.Plain] at hnames
      rw [hcase, SubscribeLists.text] at hlists hlength
      obtain ⟨last, hlast⟩ : ∃ last, last = d.timetokenEnd + 3 + (joined 44 names).length :=
        ⟨_, rfl⟩
      have hlength' : (d.text.length : Int) = last + 2 := by
        rw [hlength, hlast]
        simp only [List.length_cons, List.length_append, List.length_nil]
        omega
      have hlists' : r.memory.Reads (d.timetokenEnd + 1)
          (44 :: 34 :: (joined 44 names ++ [34])) ∧ r.memory.byte (last + 1) = 93 := by
        obtain ⟨hquoted, hclose, -⟩ := Memory.reads_append.mp hlists
        refine ⟨hquoted, ?_⟩
        rw [← hclose]
        congr 1
        simp only [List.length_cons, List.length_append, List.length_nil]
        omega
      obtain ⟨hquoted, hclose⟩ := hlists'
      obtain ⟨hcs, hlastQuote⟩ := Memory.reads_quoted hquoted (by omega : _ = last)
      have harray := arrayLen_of_body h hlen (by
        have hbyte : (d.text.length : Int) - 1 = last + 1 := by omega
        rw [hbyte]
        exact hclose)
      rw [hlength'] at harray
      have hfound := Reply.lastArguments_channels harray hopens hclose hlastQuote hpos
        ⟨hmessagesEnd, trivial⟩ htimetoken hquote hend hcs (mem_joined_names hnames) hlast
      clear harray
      refine ⟨_, hfound, rfl, rfl, ?_, ?_, ?_, ?_, ?_⟩
      · exact Reply.reads_withoutChannels hmessages (by omega) (by omega) (by omega)
      · refine Memory.reads_append.mpr ⟨?_, ?_, trivial⟩
        · exact Reply.reads_withoutChannels htext (by omega) (by omega) (by omega)
        · rw [← hend]
          exact Memory.byte_set_zero (by omega)
      · rw [hcase]
        rintro ⟨⟩
      · rw [hcase]
        rintro _ ⟨⟩
        refine ⟨(d.timetokenEnd + 3).toNat, by omega, ?_, ?_⟩
        · rw [OffsetWindow.mk.injEq]
          refine ⟨rfl, ?_⟩
          omega
        · have hofs : ((d.timetokenEnd + 3).toNat : Int) = d.timetokenEnd + 3 := by omega
          rw [hofs]
          exact reads_channels (by omega) hlast hcs
      · rw [length_withoutChannels]
        exact hroom
  | groups list names =>
      have hplain := d.plain
      rw [hcase, SubscribeLists.Plain] at hplain
      obtain ⟨hlist, hnames⟩ := hplain
      rw [hcase, SubscribeLists.text] at hlists hlength
      have hlistQuote : 34 ∉ list := fun hmem => (hlist 34 hmem).2 rfl
      obtain ⟨q, hq⟩ : ∃ q, q = d.timetokenEnd + 3 + list.length := ⟨_, rfl⟩
      obtain ⟨last, hlast⟩ : ∃ last, last = q + 3 + (joined 44 names).length := ⟨_, rfl⟩
      have hlength' : (d.text.length : Int) = last + 2 := by
        rw [hlength, hlast, hq]
        simp only [List.length_cons, List.length_append, List.length_nil]
        omega
      have hsplit : 44 :: 34 :: (list ++ 34 :: 44 :: 34 :: (joined 44 names ++ [34])) ++ [93] =
          44 :: 34 :: (list ++ [34]) ++ (44 :: 34 :: (joined 44 names ++ [34]) ++ [93]) := by simp
      rw [hsplit] at hlists
      obtain ⟨hgroups, hrest⟩ := Memory.reads_append.mp hlists
      have hplace' : d.timetokenEnd + 1 + ((44 :: 34 :: (list ++ [34])).length : Int) = q + 1 := by
        simp only [List.length_cons, List.length_append, List.length_nil]
        omega
      rw [hplace'] at hrest
      obtain ⟨hquoted, hclose, -⟩ := Memory.reads_append.mp hrest
      have hplace'' : q + 1 + ((44 :: 34 :: (joined 44 names ++ [34])).length : Int) =
          last + 1 := by
        simp only [List.length_cons, List.length_append, List.length_nil]
        omega
      rw [hplace''] at hclose
      obtain ⟨hcs, hlastQuote⟩ := Memory.reads_quoted hquoted (by omega : _ = last)
      have harray := arrayLen_of_body h hlen (by
        have hbyte : (d.text.length : Int) - 1 = last + 1 := by omega
        rw [hbyte]
        exact hclose)
      rw [hlength'] at harray
      have hfound := Reply.lastArguments_groups harray hopens hclose hlastQuote hpos htimetoken
        hquote hend hgroups hlistQuote hq hcs (mem_joined_names hnames) hlast
      clear harray
      have hmessages' : ((r.withoutChannels q last).set d.timetokenEnd 0).Reads 2
          (joined 44 d.messages) :=
        Memory.Reads.set (Reply.reads_withoutChannels hmessages (by omega) (by omega) (by omega))
          (by omega) (.inr (by omega))
      have htext' : ((r.withoutChannels q last).set d.timetokenEnd 0).Reads (d.messagesEnd + 3)
          d.timetoken :=
        Memory.Reads.set (Reply.reads_withoutChannels htext (by omega) (by omega) (by omega))
          (by omega) (.inr (by omega))
      have hchannels' : ((r.withoutChannels q last).set d.timetokenEnd 0).Reads (q + 3)
          (splitBehindFirst (joined 44 names) ++ [0]) :=
        Memory.Reads.set (reads_channels (by omega) hlast hcs) (by omega) (.inl (by omega))
      refine ⟨_, hfound, rfl, rfl, hmessages', ?_, ?_, ?_, ?_⟩
      · refine Memory.reads_append.mpr ⟨htext', ?_, trivial⟩
        rw [← hend]
        exact Memory.byte_set_zero (by omega)
      · rw [hcase]
        rintro ⟨⟩
      · rw [hcase]
        rintro _ ⟨⟩
        have hofs : ((q + 3).toNat : Int) = q + 3 := by omega
        refine ⟨(q + 3).toNat, by omega, ?_, ?_⟩
        · rw [OffsetWindow.mk.injEq]
          refine ⟨rfl, ?_⟩
          omega
        · rw [hofs]
          exact hchannels'
      · rw [length_set, length_withoutChannels]
        exact hroom

/-! ## What is handed out -/

/-- What the parser comes back with. -/
structure ParsedFrom (d : SubscribeData) (p : Parsed) : Prop where
  ok : p.result = .ok
  timetoken : p.timetoken = some d.timetoken
  msg : p.msg = .set ⟨2, d.messagesEnd.toNat⟩
  messages : p.httpReply.Reads 2 (joined 0 d.messages ++ [0])
  alone : d.lists.names = none → p.chan = .set .cleared
  channels : ∀ names, d.lists.names = some names → ∃ ofs : Nat,
    p.chan = .set ⟨ofs, ofs + (joined 44 names).length + 1⟩ ∧
    p.httpReply.Reads ofs (splitBehindFirst (joined 44 names) ++ [0])

lemma parsedFrom (h : r.body = d.text) (hlen : d.text.length < 2 ^ 31) (hquote : 34 ∉ d.timetoken) :
    ParsedFrom d (pbccParseSubscribeResponse r) := by
  obtain ⟨args, hfound, happart⟩ := takenApart h hlen hquote
  have hopens := (holds_of_body h).opens
  have hreply : r.replylen = d.text.length := by
    rw [Reply.replylen, Reply.len, h]
    omega
  have hlength := length_replyText (d := d)
  have hmessagesEnd := messagesEnd_eq d
  have hend := timetokenEnd_eq d
  have hi := happart.i
  have hprevious := happart.previous
  have hshort : ¬ 20 ≤ args.timeTokenLength := by
    have htoken := d.timetoken_short
    rw [SubscribeArguments.timeTokenLength]
    omega
  have hback : args.i - 2 = d.messagesEnd := by omega
  have hclosed : (args.httpReply.set d.messagesEnd 0).Reads (2 : Nat)
      (joined 44 d.messages ++ [0]) := by
    have hset : (args.httpReply.set d.messagesEnd 0).Reads 2 (joined 44 d.messages) :=
      happart.messages.set (by omega) (.inr (by omega))
    refine Memory.reads_append.mpr ⟨hset, ?_, trivial⟩
    have hplace : ((2 : Nat) : Int) + (joined 44 d.messages).length = d.messagesEnd := by omega
    rw [hplace]
    exact Memory.byte_set_zero (by omega)
  obtain ⟨hok, hmessages, hframe⟩ := pbccSplitArray_reads
    (by rw [length_set]; exact happart.room) hclosed d.isJsonText
  have htoken : cString (args.httpReply.text (args.i + 1) (args.previous + 1)) = d.timetoken := by
    have hplace : args.i + 1 = d.messagesEnd + 3 := by omega
    have hplace' : args.previous + 1 = d.messagesEnd + 3 + ((d.timetoken ++ [0]).length : Int) := by
      rw [List.length_append, List.length_singleton]
      omega
    rw [hplace, hplace', Memory.text_of_reads happart.timetoken]
    exact cString_append_zero d.zero_not_mem_timetoken []
  have hparsed : pbccParseSubscribeResponse r =
      { result := if args.split.2 then .ok else .formatError
        msg := .set ⟨2, (args.i - 2).toNat⟩
        chan := .set args.chan
        timetoken := some (cString (args.httpReply.text (args.i + 1) (args.previous + 1)))
        httpReply := args.split.1 } := by
    have hlong : ¬ r.replylen < 2 := by omega
    rw [pbccParseSubscribeResponse, if_neg hlong, Reply.denied, fieldIs_of_array hopens,
      fieldIs_of_array hopens, hfound]
    simp only [Bool.false_eq_true, if_false, if_neg hshort]
  have hsplit : args.split = pbccSplitArray (args.httpReply.set d.messagesEnd 0) 2 := by
    rw [SubscribeArguments.split, hback]
  rw [hparsed, hsplit, hback, htoken, hok]
  refine ⟨rfl, rfl, rfl, hmessages, ?_, ?_⟩
  · intro hnone
    rw [happart.alone hnone]
  · intro names hnames
    obtain ⟨ofs, hofs, hchan, hreads⟩ := happart.channels names hnames
    refine ⟨ofs, by rw [hchan], hframe _ _ (by omega) ?_⟩
    exact hreads.set (by omega) (.inl (by omega))

/-- The list of channels is not empty, and no empty name stands in front of others. -/
def SubscribeLists.Listed (lists : SubscribeLists) : Prop :=
  ∀ names, lists.names = some names → names ≠ [] ∧ ∀ rest, names = [] :: rest → rest = []

/-- The reply of the data is short enough for an `int`, the time token has no quote in it, and the
    list of channels is one that can be read back. -/
structure SubscribeData.Kept (d : SubscribeData) : Prop where
  length : d.text.length < 2 ^ 31
  quote : 34 ∉ d.timetoken
  listed : d.lists.Listed

lemma map_endComma {t : Bytes} (h : 44 ∉ t) : t.map endComma = t := by
  have hsame : ∀ c ∈ t, endComma c = id c := by
    rintro c hc
    have hne : c ≠ 44 := by
      rintro rfl
      exact h hc
    exact if_neg hne
  rw [List.map_congr_left hsame, List.map_id]

/-- A list of channels that does not begin with a comma is split at each comma. -/
lemma splitBehindFirst_eq {t : Bytes} (h : t.head? ≠ some 44) :
    splitBehindFirst t = t.map endComma := by
  cases t with
  | nil => rfl
  | cons c t =>
      have hc : c ≠ 44 := fun hcomma => h (congrArg some hcomma)
      rw [splitBehindFirst, List.map_cons, endComma, if_neg hc]

lemma map_joined {names : List Bytes}
    (h : ∀ name ∈ names, ∀ c ∈ name, c ≠ 0 ∧ c ≠ 34 ∧ c ≠ 44) :
    (joined 44 names).map endComma = joined 0 names := by
  induction names with
  | nil => rfl
  | cons name names ih =>
      rw [List.forall_mem_cons] at h
      have hname : name.map endComma = name := map_endComma fun hmem => (h.1 44 hmem).2.2 rfl
      by_cases hlast : names = []
      · rw [hlast, joined, joined, hname]
      · rw [joined_cons hlast, joined_cons hlast, List.map_append, List.map_cons, hname, ih h.2]
        rfl

/-- The names are split off from each other. -/
lemma splitBehindFirst_joined {names : List Bytes}
    (h : ∀ name ∈ names, ∀ c ∈ name, c ≠ 0 ∧ c ≠ 34 ∧ c ≠ 44)
    (hlisted : ∀ rest, names = [] :: rest → rest = []) :
    splitBehindFirst (joined 44 names) = joined 0 names := by
  rw [← map_joined h]
  refine splitBehindFirst_eq fun hhead => ?_
  cases names with
  | nil => cases hhead
  | cons name names =>
      rw [List.forall_mem_cons] at h
      cases name with
      | nil =>
          rw [hlisted names rfl] at hhead
          cases hhead
      | cons c name =>
          have hfirst : (joined 44 ((c :: name) :: names)).head? = some c := by
            cases names with
            | nil => rfl
            | cons next names => rfl
          rw [hfirst, Option.some.injEq] at hhead
          exact (h.1 c List.mem_cons_self).2.2 hhead

lemma names_plain {names : List Bytes} (h : d.lists.names = some names) :
    ∀ name ∈ names, ∀ c ∈ name, c ≠ 0 ∧ c ≠ 34 ∧ c ≠ 44 := by
  have hplain := d.plain
  cases hcase : d.lists with
  | none =>
      rw [hcase] at h
      cases h
  | channels channels =>
      rw [hcase] at h hplain
      cases h
      exact hplain
  | groups list channels =>
      rw [hcase] at h hplain
      cases h
      exact hplain.2

/-- What is handed out first, from a place where there is no NUL, is not empty. -/
lemma pbccGet_ne_nil {m : Memory} {ofs stop : Nat} (h : m.byte ofs ≠ 0) :
    (pbccGet m ⟨ofs, stop⟩).1 ≠ some [] := by
  have hne : m.stringAt ofs ≠ [] := by
    rw [Memory.stringAt]
    change m.cells.getD ofs 0 ≠ 0 at h
    have hlt : ofs < m.cells.length := by
      by_contra hge
      rw [List.getD_eq_getElem?_getD, List.getElem?_eq_none (Nat.not_lt.mp hge)] at h
      exact h rfl
    rw [List.getD_eq_getElem?_getD, List.getElem?_eq_getElem hlt] at h
    rw [Option.getD_some] at h
    rw [List.drop_eq_getElem_cons hlt, cString, List.takeWhile_cons, if_pos (bne_iff_ne.mpr h)]
    exact List.cons_ne_nil _ _
  simp only [pbccGet, OffsetWindow.next]
  split
  · split
    · rintro hnil
      exact hne (Option.some.inj hnil)
    · rintro ⟨⟩
  · rintro ⟨⟩

/-- Only lists of channels that are `Listed` can be read back. -/
lemma listed_of_handsOut {p : Parsed} {w : Windows} (hparsed : ParsedFrom d p)
    (h : HandsOut p.httpReply (p.apply w).chan (d.lists.names.getD [])) : d.lists.Listed := by
  intro names hnames
  obtain ⟨ofs, hchan, hreads⟩ := hparsed.channels names hnames
  have hfirst := h 1
  rw [hnames, Option.getD_some] at hfirst
  have hwindow : (p.apply w).chan = ⟨ofs, ofs + (joined 44 names).length + 1⟩ := by
    change p.chan.apply w.chan = _
    rw [hchan]
    rfl
  rw [hwindow] at hfirst
  refine ⟨?_, ?_⟩
  · rintro rfl
    have hget : pbccGet p.httpReply ⟨ofs, ofs + (joined 44 []).length + 1⟩ = (some [], _) :=
      pbccGet_piece hreads List.not_mem_nil (Nat.lt_succ_self ofs) (Nat.le_succ ofs)
    simp only [pbccGets] at hfirst
    rw [hget] at hfirst
    cases hfirst
  · rintro rest rfl
    by_contra hrest
    rw [joined_cons hrest] at hreads
    have hbyte : p.httpReply.byte ofs ≠ 0 := by
      rw [hreads.1]
      decide
    have hget : (pbccGet p.httpReply ⟨ofs, ofs + (joined 44 ([] :: rest)).length + 1⟩).1 =
        some [] := by simpa [pbccGets] using hfirst
    exact pbccGet_ne_nil hbyte hget

end Data

/-- **The data of a reply of subscribe are kept** exactly if the reply is short enough for an `int`,
    the time token has no quote in it, and the list of channels, where there is one, is not empty
    and does not begin with an empty name that others follow. -/
theorem subscribe_reply_kept_iff (d : SubscribeData) (r : Reply) (w : Windows)
    (h : r.body = d.text) : (pbccParseSubscribeResponse r).Keeps w d ↔ d.Kept := by
  constructor
  · intro hkeeps
    have hlen : d.text.length < 2 ^ 31 := by
      by_contra hlong
      have hnegative : r.replylen < 2 := by
        have hfits := r.fits
        rw [Reply.replylen, Reply.len]
        rw [h] at hfits ⊢
        omega
      have hok := hkeeps.ok
      rw [pbccParseSubscribeResponse, if_pos hnegative] at hok
      cases hok
    have hquote : 34 ∉ d.timetoken := Reply.timetoken_plain hkeeps.timetoken
    exact ⟨hlen, hquote, listed_of_handsOut (parsedFrom h hlen hquote) hkeeps.channels⟩
  · rintro ⟨hlen, hquote, hlisted⟩
    obtain ⟨hok, htoken, hmsg, hmessages, halone, hchannels⟩ := parsedFrom h hlen hquote
    obtain ⟨p, hp⟩ : ∃ p, pbccParseSubscribeResponse r = p := ⟨_, rfl⟩
    rw [hp] at hok htoken hmsg hmessages halone hchannels ⊢
    refine ⟨hok, ?_, ?_, htoken⟩
    · have hstop : d.messagesEnd.toNat = 2 + (joined 0 d.messages).length := by
        rw [messagesEnd_eq, length_joined 0 44]
        omega
      change HandsOut p.httpReply (p.msg.apply w.msg) d.messages
      rw [hmsg, hstop]
      by_cases hnone : d.messages = []
      · rw [hnone]
        exact handsOut_empty (Nat.le_refl 2)
      · refine handsOut_pieces hnone (fun t ht => ?_) hmessages (.inr ⟨rfl, fun t ht => ?_⟩)
        · exact zero_not_mem_of_isJsonText (d.isJsonText t ht)
        · exact JsonText.IsJsonText.ne_nil (d.isJsonText t ht)
    · change HandsOut p.httpReply (p.chan.apply w.chan) _
      cases hnames : d.lists.names with
      | none =>
          rw [halone hnames]
          exact handsOut_empty OffsetWindow.empty_cleared
      | some names =>
          obtain ⟨ofs, hchan, hreads⟩ := hchannels names hnames
          obtain ⟨hne, hfirst⟩ := hlisted names hnames
          have hplain := names_plain hnames
          rw [splitBehindFirst_joined hplain hfirst] at hreads
          rw [hchan]
          rw [length_joined 44 0]
          refine handsOut_pieces hne (fun name hname hzero => ?_) hreads (.inl rfl)
          exact (hplain name hname 0 hzero).1 rfl

/-- A number and a string, from two channels of a group. -/
def twoChannels : SubscribeData where
  messages := [ascii "1", ascii "\"a\""]
  timetoken := ascii "15"
  lists := .groups (ascii "g") [ascii "ab", ascii "c"]
  isJsonText := by
    have hdigits : IsDigits [49] := ⟨List.cons_ne_nil _ _, by simp [IsDigit]⟩
    have hnumber : IsNumber [49] :=
      ⟨[], [49], [], [], .inl rfl, ⟨hdigits, fun h => absurd h (by decide)⟩, .inl rfl, .inl rfl,
        rfl⟩
    have hstring : IsStringBody [97] := .plain (by decide) (by decide) (by decide) .nil
    have hempty : IsWs [] := fun _ hc => absurd hc List.not_mem_nil
    intro message hmessage
    rcases List.mem_cons.mp hmessage with rfl | hmessage
    · exact ⟨0, 0, [], [49], [], hempty, .scalar (.number hnumber), hempty, rfl⟩
    · rcases List.mem_cons.mp hmessage with rfl | hmessage
      · exact ⟨0, 0, [], [34, 97, 34], [], hempty, .string hstring, hempty, rfl⟩
      · cases hmessage
  timetoken_short := by decide
  zero_not_mem_timetoken := by decide
  plain := by
    change (∀ c ∈ [103], c ≠ 0 ∧ c ≠ 34) ∧
      ∀ name ∈ [[97, 98], [99]], ∀ c ∈ name, c ≠ 0 ∧ c ≠ 34 ∧ c ≠ 44
    simp

theorem subscribe_reply_kept_twoChannels :
    (pbccParseSubscribeResponse ⟨twoChannels.text, [], [], by decide⟩).Keeps .cleared
      twoChannels := by
  refine (subscribe_reply_kept_iff twoChannels _ .cleared rfl).mpr ⟨by decide, by decide, ?_⟩
  rintro names ⟨⟩
  exact ⟨List.cons_ne_nil _ _, fun rest hrest => by cases hrest⟩

/-- A list of two channels, the first of which has an empty name. -/
def emptyFirst : SubscribeData where
  messages := []
  timetoken := ascii "1"
  lists := .channels [[], ascii "a"]
  isJsonText := fun _ h => absurd h List.not_mem_nil
  timetoken_short := by decide
  zero_not_mem_timetoken := by decide
  plain := by
    change ∀ name ∈ [[], [97]], ∀ c ∈ name, c ≠ 0 ∧ c ≠ 34 ∧ c ≠ 44
    simp

/-- **The data of a reply are not always kept**: the two names come out as one, with the comma
    between them. -/
theorem subscribe_reply_not_always_kept :
    ¬ ∀ (d : SubscribeData) (r : Reply) (w : Windows), r.body = d.text →
      (pbccParseSubscribeResponse r).Keeps w d := by
  intro hall
  have hchannels := (hall emptyFirst ⟨emptyFirst.text, [], [], by decide⟩ .cleared rfl).channels 1
  revert hchannels
  decide +kernel

end PubNub
