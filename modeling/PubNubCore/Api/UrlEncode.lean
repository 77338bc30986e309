import PubNubCore.Core.Transactions
import PubNubCore.Core.Types
import PubNubCore.Lib.CharArray
import PubNubCore.Lib.PercentEncoding

/-!
# The percent encoding of URLs

`pubnub_url_encode` of `core/pubnub_url_encode.c`.  It goes over the string in turns, each of which
copies a run of characters that are allowed as they are and then one escape, and it asks before
either of them whether there is room.  The buffer is a part of an array, from `base` on;
`buffer_size` is a `size_t`, the room for a run is an `unsigned`, and the length that is returned is
an `int`.

The result is `none` where something is written outside of the array, and where an `int` is given a
number which it cannot hold, because the language does not say what it holds then.
-/

namespace PubNub

/-- `PUBNUB_USE_OBJECTS_API`, `PUBNUB_USE_ADVANCED_HISTORY` and `PUBNUB_USE_REVOKE_TOKEN_API`. -/
structure UrlEncodeBuild where
  useObjectsApi : Bool
  useAdvancedHistory : Bool
  useRevokeTokenApi : Bool

/-- `OK_SPAN_CHARACTERS`. -/
def okSpanCharacters : Bytes :=
  ascii "abcdefghijklmnopqrstuvwxyzABCDEFGHIJKLMNOPQRSTUVWXYZ0123456789-_.~,[]"

/-- `OK_SPAN_CHARS_MINUS_COMMA`. -/
def okSpanCharsMinusComma : Bytes :=
  ascii "abcdefghijklmnopqrstuvwxyzABCDEFGHIJKLMNOPQRSTUVWXYZ0123456789-_.~[]"

/-- The transactions for which a comma is not left as it is. -/
def encodesComma (b : UrlEncodeBuild) : Pbtt → Bool
  | .getallUuidmetadata | .setUuidmetadata | .getUuidmetadata | .getallChannelmetadata
  | .setChannelmetadata | .getChannelmetadata | .getMemberships | .setMemberships
  | .removeMemberships | .getMembers | .addMembers | .setMembers | .removeMembers =>
      b.useObjectsApi
  | .messageCounts => b.useObjectsApi && b.useAdvancedHistory
  | .revokeToken => b.useRevokeTokenApi
  | _ => false

/-- The characters which `pubnub_url_encode` leaves as they are. -/
def okSpanChars (b : UrlEncodeBuild) (pt : Pbtt) : Bytes :=
  if encodesComma b pt then okSpanCharsMinusComma else okSpanCharacters

/-- `buffer_size - i - 1`. -/
def urlRoom (bufferSize : UInt64) (i : Nat) : UInt64 := bufferSize - UInt64.ofNat i - 1

/-- `okspan < (unsigned)(buffer_size - i - 1)`. -/
def hasRunRoom (bufferSize : UInt64) (i okspan : Nat) : Bool :=
  decide (okspan < (urlRoom bufferSize i).toUInt32.toNat)

/-- `3 <= buffer_size - i - 1`. -/
def hasEscapeRoom (bufferSize : UInt64) (i : Nat) : Bool := 3 ≤ urlRoom bufferSize i

/-- `enc`, without the zero behind it. -/
def urlEscape (c : UInt8) : Bytes :=
  let digits := ascii "0123456789ABCDEF"
  [37, digits.getD (c.toNat / 16) 0, digits.getD (c.toNat % 16) 0]

section Encode

variable {n : Nat} (ok : UInt8 → Bool) (base : Nat) (bufferSize : UInt64)

/-- Copies a run and ends the string behind it. -/
def appendRun (a : CharArray n) (i : Nat) (run : Bytes) : Option (CharArray n × Nat) := do
  let a ← a.write (base + i) run
  let i ← asInt (i + run.length)
  let a ← a.write (base + i) [0]
  some (a, i)

/-- Copies an escape with the zero behind it. -/
def appendEscape (a : CharArray n) (i : Nat) (c : UInt8) : Option (CharArray n × Nat) := do
  let a ← a.write (base + i) (urlEscape c ++ [0])
  let i ← asInt (i + 3)
  some (a, i)

/-- What a turn does with the rest of the string behind its run, before the `next` turn. -/
def urlEncodeRest (next : CharArray n → Nat → Bytes → Option (CharArray n × Option Nat))
    (a : CharArray n) (i : Nat) : Bytes → Option (CharArray n × Option Nat)
  | [] => some (a, some i)
  | c :: what =>
      if hasEscapeRoom bufferSize i = false then some (a, none)
      else (appendEscape base a i c).bind fun (a, i) => next a i what

/-- The loop of `pubnub_url_encode`, at the position `i` of the buffer; what it comes back with is
    the length, `none` for -1. -/
def urlEncodeLoop : Nat → CharArray n → Nat → Bytes → Option (CharArray n × Option Nat)
  | _, a, i, [] => some (a, some i)
  | 0, _, _, _ :: _ => none
  | fuel + 1, a, i, what =>
      let run := what.takeWhile ok
      if run = [] then urlEncodeRest base bufferSize (urlEncodeLoop fuel) a i (what.dropWhile ok)
      else if hasRunRoom bufferSize i run.length = false then some (a, none)
      else (appendRun base a i run).bind fun (a, i) =>
        urlEncodeRest base bufferSize (urlEncodeLoop fuel) a i (what.dropWhile ok)

end Encode

/-- `pubnub_url_encode`.  Every turn but the last takes at least one character. -/
def pubnubUrlEncode {n : Nat} (b : UrlEncodeBuild) (a : CharArray n) (base : Nat) (what : Bytes)
    (bufferSize : UInt64) (pt : Pbtt) : Option (CharArray n × Option Nat) :=
  (a.write base [0]).bind fun a =>
    urlEncodeLoop (okSpanChars b pt).contains base bufferSize what.length a 0 what

/-! ## Pieces -/

/-- What is stored with one look at the room. -/
inductive UrlPiece
  | run (s : Bytes)
  | escape (c : UInt8)

namespace UrlPiece

/-- What is stored of it. -/
def text : UrlPiece → Bytes
  | run s => s
  | escape c => percentEscape c

/-- There is found to be room for it. -/
def hasRoom (bufferSize : UInt64) (i : Nat) : UrlPiece → Bool
  | run s => hasRunRoom bufferSize i s.length
  | escape _ => hasEscapeRoom bufferSize i

end UrlPiece

/-- Puts a character before a run, or before what is no run. -/
def consRun (c : UInt8) : List UrlPiece → List UrlPiece
  | .run s :: pieces => .run (c :: s) :: pieces
  | pieces => .run [c] :: pieces

/-- The runs and the escapes of a string. -/
def urlPieces (ok : UInt8 → Bool) : Bytes → List UrlPiece
  | [] => []
  | c :: s => if ok c then consRun c (urlPieces ok s) else .escape c :: urlPieces ok s

/-- From the position `i` on, every piece for which there is room ends at a position which an `int`
    can hold. -/
def EndsInRange (bufferSize : UInt64) : Nat → List UrlPiece → Prop
  | _, [] => True
  | i, p :: pieces => p.hasRoom bufferSize i = true →
      i + p.text.length < 2 ^ 31 ∧ EndsInRange bufferSize (i + p.text.length) pieces

instance instDecidableEndsInRange (bufferSize : UInt64) :
    (i : Nat) → (pieces : List UrlPiece) → Decidable (EndsInRange bufferSize i pieces)
  | _, [] => inferInstanceAs (Decidable True)
  | i, p :: pieces =>
      have := instDecidableEndsInRange bufferSize (i + p.text.length) pieces
      inferInstanceAs (Decidable (_ → _ ∧ _))

/-- The buffer holds a string which stands for `what`, is percent-encoded over the allowed
    characters, and has the length `length`. -/
structure UrlEncoded (ok : UInt8 → Bool) (what buffer : Bytes) (length : Nat) : Prop where
  ended : buffer.getD length 1 = 0
  string : buffer.takeWhile (· != 0) = buffer.take length
  encoded : PercentEncoded ok (buffer.take length)
  decoded : percentDecode (buffer.take length) = what

section Pieces

variable {ok : UInt8 → Bool} {c : UInt8} {run rest : Bytes}

lemma urlPieces_escape (hc : ok c = false) :
    urlPieces ok (c :: rest) = .escape c :: urlPieces ok rest := by
  rw [urlPieces, hc]
  rfl

/-- A run is one piece, if what follows it is not allowed. -/
lemma urlPieces_run (hrun : ∀ c ∈ run, ok c = true) (hne : run ≠ [])
    (hrest : ∀ c t, rest = c :: t → ok c = false) :
    urlPieces ok (run ++ rest) = .run run :: urlPieces ok rest := by
  induction run with
  | nil => exact absurd rfl hne
  | cons c run ih =>
      rw [List.cons_append, urlPieces, if_pos (hrun c List.mem_cons_self)]
      cases run with
      | nil =>
          cases rest with
          | nil => rfl
          | cons d t =>
              rw [List.nil_append, urlPieces_escape (hrest d t rfl)]
              rfl
      | cons d run =>
          rw [ih (fun e he => hrun e (List.mem_cons_of_mem c he)) (List.cons_ne_nil d run)]
          rfl

end Pieces

/-! ## One piece -/

lemma urlEscape_eq (c : UInt8) : urlEscape c = percentEscape c := by
  have hdigit : ∀ n < 16, (ascii "0123456789ABCDEF").getD n 0 = upperHexDigit n := by decide
  have hc : c.toNat < 256 := c.toNat_lt
  rw [urlEscape, percentEscape, hdigit _ (by omega), hdigit _ (by omega)]

/-- The room is what is left behind the zero. -/
lemma toNat_urlRoom {bufferSize : UInt64} {i left : Nat} (h : bufferSize.toNat = i + 1 + left) :
    (urlRoom bufferSize i).toNat = left := by
  have hsize := bufferSize.toNat_lt
  have hi : (UInt64.ofNat i).toNat = i := by
    rw [UInt64.toNat_ofNat', Nat.mod_eq_of_lt (by omega)]
  have hle : UInt64.ofNat i ≤ bufferSize := by
    rw [UInt64.le_iff_toNat_le, hi]
    omega
  have hsub : (bufferSize - UInt64.ofNat i).toNat = 1 + left := by
    rw [UInt64.toNat_sub_of_le _ _ hle, hi]
    omega
  have hone : (1 : UInt64) ≤ bufferSize - UInt64.ofNat i := by
    rw [UInt64.le_iff_toNat_le, hsub, UInt64.toNat_one]
    omega
  rw [urlRoom, UInt64.toNat_sub_of_le _ _ hone, hsub, UInt64.toNat_one]
  omega

lemma le_of_hasRunRoom {bufferSize : UInt64} {i left okspan : Nat}
    (h : bufferSize.toNat = i + 1 + left) (hroom : hasRunRoom bufferSize i okspan = true) :
    okspan ≤ left := by
  have hlt := of_decide_eq_true hroom
  rw [UInt64.toNat_toUInt32, toNat_urlRoom h] at hlt
  have hmod : left % 2 ^ 32 ≤ left := Nat.mod_le left (2 ^ 32)
  omega

lemma le_of_hasEscapeRoom {bufferSize : UInt64} {i left : Nat}
    (h : bufferSize.toNat = i + 1 + left) (hroom : hasEscapeRoom bufferSize i = true) :
    3 ≤ left := by
  have hle := of_decide_eq_true hroom
  rw [UInt64.le_iff_toNat_le, toNat_urlRoom h] at hle
  exact hle

/-! ## One step of the loop -/

section Steps

variable {n base : Nat} {bufferSize : UInt64} {a : CharArray n} {i : Nat} {run : Bytes} {c : UInt8}
  {front done cur back : Bytes}

/-- A run goes behind what is there, if its end can be told. -/
lemma appendRun_eq (hbase : (front ++ done).length = base + i)
    (ha : a.bytes = front ++ done ++ 0 :: (cur ++ back)) (hroom : run.length ≤ cur.length) :
    if i + run.length < 2 ^ 31 then ∃ b, appendRun base a i run = some (b, i + run.length) ∧
      b.bytes = front ++ (done ++ run) ++ 0 :: (cur.drop run.length ++ back)
    else appendRun base a i run = none := by
  have hlength : run.length ≤ (0 :: (cur ++ back)).length := by
    rw [List.length_cons, List.length_append]
    omega
  obtain ⟨b, hb, hbytes⟩ := CharArray.exists_write ha hlength
  rw [hbase] at hb
  have htail : 1 ≤ ((0 :: (cur ++ back)).drop run.length).length := by
    rw [List.length_drop, List.length_cons, List.length_append]
    omega
  obtain ⟨d, hd, hbytes'⟩ := CharArray.exists_write (s := [0]) hbytes htail
  have hplace : (front ++ done ++ run).length = base + (i + run.length) := by
    rw [List.length_append, hbase, Nat.add_assoc]
  rw [hplace] at hd
  split
  · rename_i hlt
    refine ⟨d, ?_, ?_⟩
    · rw [appendRun, hb, Option.bind_eq_bind, Option.bind_some, asInt, if_pos hlt,
        Option.bind_eq_bind, Option.bind_some, hd, Option.bind_some]
    · rw [hbytes', List.length_singleton, List.drop_drop, List.drop_succ_cons,
        List.drop_append_of_le_length hroom]
      simp
  · rename_i hlt
    rw [appendRun, hb, Option.bind_eq_bind, Option.bind_some, asInt, if_neg hlt]
    rfl

/-- And so does an escape. -/
lemma appendEscape_eq (hbase : (front ++ done).length = base + i)
    (ha : a.bytes = front ++ done ++ 0 :: (cur ++ back)) (hroom : 3 ≤ cur.length) :
    if i + 3 < 2 ^ 31 then ∃ b, appendEscape base a i c = some (b, i + 3) ∧
      b.bytes = front ++ (done ++ percentEscape c) ++ 0 :: (cur.drop 3 ++ back)
    else appendEscape base a i c = none := by
  have hescape : (urlEscape c ++ [0]).length = 4 := rfl
  have hlength : (urlEscape c ++ [0]).length ≤ (0 :: (cur ++ back)).length := by
    rw [hescape, List.length_cons, List.length_append]
    omega
  obtain ⟨b, hb, hbytes⟩ := CharArray.exists_write ha hlength
  rw [hbase] at hb
  split
  · rename_i hlt
    refine ⟨b, ?_, ?_⟩
    · rw [appendEscape, hb, Option.bind_eq_bind, Option.bind_some, asInt, if_pos hlt]
      rfl
    · rw [hbytes, hescape, List.drop_succ_cons, List.drop_append_of_le_length hroom,
        urlEscape_eq]
      simp
  · rename_i hlt
    rw [appendEscape, hb, Option.bind_eq_bind, Option.bind_some, asInt, if_neg hlt]
    rfl

/-- What the loop has stored when it comes back with `result`: it has kept to the buffer, and if it
    has not failed, the rest of the string is there. -/
def UrlStored (ok : UInt8 → Bool) (bufferSize : UInt64) (b : CharArray n) (result : Option Nat)
    (front done what back : Bytes) : Prop :=
  ∃ buffer, b.bytes = front ++ buffer ++ back ∧ buffer.length = bufferSize.toNat ∧
    ∀ length, result = some length → length = (done ++ percentEncode ok what).length ∧
      ∃ cur, buffer = done ++ percentEncode ok what ++ 0 :: cur

/-- An outcome of the loop from the position `i` on: it is defined if and only if all pieces end where
    an `int` can tell, and then the rest of the string is stored. -/
def UrlOutcome (ok : UInt8 → Bool) (bufferSize : UInt64) (i : Nat) (front done what back : Bytes)
    (outcome : Option (CharArray n × Option Nat)) : Prop :=
  (EndsInRange bufferSize i (urlPieces ok what) → ∃ b result, outcome = some (b, result) ∧
    UrlStored ok bufferSize b result front done what back) ∧
  (¬ EndsInRange bufferSize i (urlPieces ok what) → outcome = none)

/-- A part of the function stores the rest of every string of at most `k` characters. -/
def StoresRest (ok : UInt8 → Bool) (base : Nat) (bufferSize : UInt64) (k : Nat)
    (next : CharArray n → Nat → Bytes → Option (CharArray n × Option Nat)) : Prop :=
  ∀ {a : CharArray n} {i : Nat} {front done cur back what : Bytes}, front.length = base →
    done.length = i → bufferSize.toNat = i + 1 + cur.length →
    a.bytes = front ++ done ++ 0 :: (cur ++ back) → what.length ≤ k →
    UrlOutcome ok bufferSize i front done what back (next a i what)

variable {ok : UInt8 → Bool} {what : Bytes}

/-- At the end of the string everything is there. -/
lemma urlStored_end (hdone : done.length = i) (hsize : bufferSize.toNat = i + 1 + cur.length)
    (ha : a.bytes = front ++ done ++ 0 :: (cur ++ back)) :
    UrlStored ok bufferSize a (some i) front done [] back := by
  refine ⟨done ++ 0 :: cur, by simp [ha], ?_, ?_⟩
  · rw [List.length_append, List.length_cons]
    omega
  · rintro length ⟨⟩
    simp [hdone]

/-- Where there is no room the buffer stays as it is. -/
lemma urlStored_full (hdone : done.length = i) (hsize : bufferSize.toNat = i + 1 + cur.length)
    (ha : a.bytes = front ++ done ++ 0 :: (cur ++ back)) :
    UrlStored ok bufferSize a none front done what back := by
  refine ⟨done ++ 0 :: cur, by simp [ha], ?_, ?_⟩
  · rw [List.length_append, List.length_cons]
    omega
  · rintro length ⟨⟩

/-- What has been stored behind a piece has been stored behind what was there before it. -/
lemma UrlStored.of_append {result : Option Nat} {piece rest : Bytes}
    (h : UrlStored ok bufferSize a result front (done ++ piece) rest back)
    (hpiece : percentEncode ok what = piece ++ percentEncode ok rest) :
    UrlStored ok bufferSize a result front done what back := by
  obtain ⟨buffer, hbytes, hlength, hresult⟩ := h
  refine ⟨buffer, hbytes, hlength, fun length heq => ?_⟩
  rw [hpiece, ← List.append_assoc]
  exact hresult length heq

/-- Where there is no room, nothing has to be in range. -/
lemma urlOutcome_full {p : UrlPiece} {pieces : List UrlPiece} (hdone : done.length = i)
    (hsize : bufferSize.toNat = i + 1 + cur.length)
    (ha : a.bytes = front ++ done ++ 0 :: (cur ++ back))
    (hpieces : urlPieces ok what = p :: pieces) (hroom : p.hasRoom bufferSize i = false) :
    UrlOutcome ok bufferSize i front done what back (some (a, none)) := by
  refine ⟨fun _ => ⟨a, none, rfl, urlStored_full hdone hsize ha⟩, fun hends => absurd ?_ hends⟩
  rw [hpieces]
  intro h
  rw [hroom] at h
  cases h

/-- A piece for which there is room is stored before what follows it. -/
lemma UrlOutcome.of_append {p : UrlPiece} {rest : Bytes}
    {outcome : Option (CharArray n × Option Nat)}
    (h : UrlOutcome ok bufferSize (i + p.text.length) front (done ++ p.text) rest back outcome)
    (hpieces : urlPieces ok what = p :: urlPieces ok rest)
    (hpiece : percentEncode ok what = p.text ++ percentEncode ok rest)
    (hroom : p.hasRoom bufferSize i = true) (hlt : i + p.text.length < 2 ^ 31) :
    UrlOutcome ok bufferSize i front done what back outcome := by
  have hiff : EndsInRange bufferSize i (urlPieces ok what) ↔
      EndsInRange bufferSize (i + p.text.length) (urlPieces ok rest) := by
    rw [hpieces]
    exact ⟨fun hends => (hends hroom).2, fun hends _ => ⟨hlt, hends⟩⟩
  refine ⟨fun hends => ?_, fun hends => h.2 (hiff.not.mp hends)⟩
  obtain ⟨b, result, heq, hstored⟩ := h.1 (hiff.mp hends)
  exact ⟨b, result, heq, hstored.of_append hpiece⟩

/-- A piece that ends too far behind leaves nothing defined. -/
lemma urlOutcome_none {p : UrlPiece} {pieces : List UrlPiece}
    (hpieces : urlPieces ok what = p :: pieces) (hroom : p.hasRoom bufferSize i = true)
    (hlt : ¬ i + p.text.length < 2 ^ 31) :
    UrlOutcome (n := n) ok bufferSize i front done what back none := by
  refine ⟨fun hends => ?_, fun _ => rfl⟩
  rw [hpieces] at hends
  exact absurd (hends hroom).1 hlt

lemma urlOutcome_rest {k : Nat}
    {next : CharArray n → Nat → Bytes → Option (CharArray n × Option Nat)}
    (hnext : StoresRest ok base bufferSize k next) (hbase : front.length = base)
    (hdone : done.length = i) (hsize : bufferSize.toNat = i + 1 + cur.length)
    (ha : a.bytes = front ++ done ++ 0 :: (cur ++ back)) (hk : what.length ≤ k + 1)
    (hwhat : ∀ c t, what = c :: t → ok c = false) :
    UrlOutcome ok bufferSize i front done what back
      (urlEncodeRest base bufferSize next a i what) := by
  cases what with
  | nil =>
      refine ⟨fun _ => ⟨a, some i, rfl, urlStored_end hdone hsize ha⟩, fun hends => ?_⟩
      exact absurd trivial hends
  | cons c what =>
      have hc := hwhat c what rfl
      have hpieces : urlPieces ok (c :: what) = .escape c :: urlPieces ok what :=
        urlPieces_escape hc
      rw [urlEncodeRest]
      cases hroom : hasEscapeRoom bufferSize i with
      | false => exact urlOutcome_full hdone hsize ha hpieces hroom
      | true =>
          have hplace : (front ++ done).length = base + i := by
            rw [List.length_append, hbase, hdone]
          have hthree := le_of_hasEscapeRoom hsize hroom
          have hescape := appendEscape_eq (c := c) hplace ha hthree
          rw [if_neg Bool.noConfusion]
          by_cases hlt : i + 3 < 2 ^ 31
          · rw [if_pos hlt] at hescape
            obtain ⟨b, hb, hbytes⟩ := hescape
            have hdone' : (done ++ percentEscape c).length = i + 3 := by
              rw [List.length_append, hdone]
              rfl
            have hsize' : bufferSize.toNat = i + 3 + 1 + (cur.drop 3).length := by
              rw [List.length_drop]
              omega
            have hrest := hnext hbase hdone' hsize' hbytes (Nat.le_of_succ_le_succ hk)
            rw [hb, Option.bind_some]
            exact hrest.of_append (p := .escape c) hpieces (percentEncode_cons_escape hc) hroom hlt
          · rw [if_neg hlt] at hescape
            rw [hescape]
            exact urlOutcome_none hpieces hroom hlt

lemma urlEncodeLoop_succ (fuel : Nat) (a : CharArray n) (i : Nat) (what : Bytes) :
    urlEncodeLoop ok base bufferSize (fuel + 1) a i what =
      if what.takeWhile ok = [] then
        urlEncodeRest base bufferSize (urlEncodeLoop ok base bufferSize fuel) a i
          (what.dropWhile ok)
      else if hasRunRoom bufferSize i (what.takeWhile ok).length = false then some (a, none)
      else (appendRun base a i (what.takeWhile ok)).bind fun (a, i) =>
        urlEncodeRest base bufferSize (urlEncodeLoop ok base bufferSize fuel) a i
          (what.dropWhile ok) := by
  cases what with
  | nil => rfl
  | cons c what => rfl

/-- **The loop.**  It stores the string, or comes back without a length; where a piece ends too far
    behind its result is not defined. -/
lemma storesRest_urlEncodeLoop (fuel : Nat) :
    StoresRest (n := n) ok base bufferSize fuel (urlEncodeLoop ok base bufferSize fuel) := by
  induction fuel with
  | zero =>
      intro a i front done cur back what hbase hdone hsize ha hfuel
      obtain rfl := List.length_eq_zero_iff.mp (Nat.le_zero.mp hfuel)
      refine ⟨fun _ => ⟨a, some i, rfl, urlStored_end hdone hsize ha⟩, fun hends => ?_⟩
      exact absurd trivial hends
  | succ fuel ih =>
      intro a i front done cur back what hbase hdone hsize ha hfuel
      have hrun : ∀ c ∈ what.takeWhile ok, ok c = true := fun c hc => List.mem_takeWhile_imp hc
      have hnot : ∀ c t, what.dropWhile ok = c :: t → ok c = false := by
        intro c t heq
        have hhead := List.head?_dropWhile_not ok what
        rw [heq] at hhead
        simpa using hhead
      rw [urlEncodeLoop_succ]
      obtain ⟨run, rest, hsplit, hrest, hwhat⟩ : ∃ run rest, what.takeWhile ok = run ∧
          what.dropWhile ok = rest ∧ run ++ rest = what :=
        ⟨_, _, rfl, rfl, List.takeWhile_append_dropWhile⟩
      rw [hsplit] at hrun ⊢
      rw [hrest] at hnot ⊢
      subst hwhat
      rw [List.length_append] at hfuel
      by_cases hnil : run = []
      · subst hnil
        rw [if_pos rfl]
        exact urlOutcome_rest ih hbase hdone hsize ha (by simpa using hfuel) hnot
      have hpieces := urlPieces_run hrun hnil hnot
      rw [if_neg hnil]
      cases hroom : hasRunRoom bufferSize i run.length with
      | false => exact urlOutcome_full hdone hsize ha hpieces hroom
      | true =>
          have hplace : (front ++ done).length = base + i := by
            rw [List.length_append, hbase, hdone]
          have hle := le_of_hasRunRoom hsize hroom
          have happend := appendRun_eq hplace ha hle
          rw [if_neg Bool.noConfusion]
          by_cases hlt : i + run.length < 2 ^ 31
          · rw [if_pos hlt] at happend
            obtain ⟨b, hb, hbytes⟩ := happend
            have hdone' : (done ++ run).length = i + run.length := by
              rw [List.length_append, hdone]
            have hsize' : bufferSize.toNat = i + run.length + 1 + (cur.drop run.length).length := by
              rw [List.length_drop]
              omega
            have hshort : rest.length ≤ fuel + 1 := by omega
            have hrest' := urlOutcome_rest ih hbase hdone' hsize' hbytes hshort hnot
            rw [hb, Option.bind_some]
            exact hrest'.of_append (p := .run run) hpieces (percentEncode_append hrun) hroom hlt
          · rw [if_neg hlt] at happend
            rw [happend]
            exact urlOutcome_none hpieces hroom hlt

end Steps

/-! ## The function -/

section Encode

variable {b : UrlEncodeBuild} {pt : Pbtt} {what : Bytes}

lemma okSpanChars_percent (b : UrlEncodeBuild) (pt : Pbtt) :
    (okSpanChars b pt).contains 37 = false := by
  rw [okSpanChars]
  split
  · decide
  · decide

lemma okSpanChars_zero (b : UrlEncodeBuild) (pt : Pbtt) :
    (okSpanChars b pt).contains 0 = false := by
  rw [okSpanChars]
  split
  · decide
  · decide

/-- A string that has been stored from the beginning of the buffer is the encoded one. -/
lemma urlEncoded_of_stored {buffer cur : Bytes}
    (h : buffer = percentEncode (okSpanChars b pt).contains what ++ 0 :: cur) :
    UrlEncoded (okSpanChars b pt).contains what buffer
      (percentEncode (okSpanChars b pt).contains what).length := by
  have htake : buffer.take (percentEncode (okSpanChars b pt).contains what).length =
      percentEncode (okSpanChars b pt).contains what := by rw [h, List.take_left]
  have hzero : ∀ c ∈ percentEncode (okSpanChars b pt).contains what, (c != 0) = true := by
    intro c hc
    rw [bne_iff_ne]
    rintro rfl
    exact not_mem_percentEncode (okSpanChars_zero b pt) what hc
  refine ⟨?_, ?_, ?_, ?_⟩
  · rw [h, List.getD_eq_getElem?_getD, List.getElem?_append_right (Nat.le_refl _), Nat.sub_self]
    rfl
  · rw [htake, h, List.takeWhile_append_of_pos hzero, List.takeWhile_cons_of_neg (by simp),
      List.append_nil]
  · rw [htake]
    exact percentEncoded_percentEncode what
  · rw [htake, percentDecode_percentEncode (okSpanChars_percent b pt)]

/-- The loop is started at an empty string in the buffer. -/
lemma urlOutcome_pubnubUrlEncode {n : Nat} {a : CharArray n} {front buffer back : Bytes}
    {bufferSize : UInt64} (ha : a.bytes = front ++ buffer ++ back)
    (hbuffer : buffer.length = bufferSize.toNat) (hsize : 1 ≤ bufferSize) :
    UrlOutcome (okSpanChars b pt).contains bufferSize 0 front [] what back
      (pubnubUrlEncode b a front.length what bufferSize pt) := by
  have hpos : 1 ≤ buffer.length := by
    rw [UInt64.le_iff_toNat_le, UInt64.toNat_one] at hsize
    rwa [hbuffer]
  have hfits : [(0 : UInt8)].length ≤ (buffer ++ back).length := by
    rw [List.length_singleton, List.length_append]
    omega
  rw [List.append_assoc] at ha
  obtain ⟨a₀, ha₀, hbytes⟩ := CharArray.exists_write ha hfits
  have hcur : a₀.bytes = front ++ [] ++ 0 :: (buffer.drop 1 ++ back) := by
    rw [hbytes, List.length_singleton, List.drop_append_of_le_length hpos]
    simp
  have hlength : bufferSize.toNat = 0 + 1 + (buffer.drop 1).length := by
    rw [List.length_drop]
    omega
  rw [pubnubUrlEncode, ha₀, Option.bind_some]
  exact storesRest_urlEncodeLoop what.length rfl rfl hlength hcur (Nat.le_refl what.length)

end Encode

/-- **The encoder of URLs.**  Whatever the string, the transaction and the buffer are, the function
    keeps to the buffer, and the string it comes back with the length of is ended within it, is
    percent-encoded and stands for what it was given; this is so if and only if every run and every
    escape for which there is found to be room ends where an `int` can tell. -/
theorem pubnub_url_encode_right {n : Nat} (b : UrlEncodeBuild) (a : CharArray n)
    (front buffer back what : Bytes) (bufferSize : UInt64) (pt : Pbtt)
    (ha : a.bytes = front ++ buffer ++ back) (hbuffer : buffer.length = bufferSize.toNat)
    (hsize : 1 ≤ bufferSize) :
    (∃ a' result, pubnubUrlEncode b a front.length what bufferSize pt = some (a', result) ∧
      ∃ buffer', a'.bytes = front ++ buffer' ++ back ∧ buffer'.length = bufferSize.toNat ∧
        ∀ length, result = some length →
          UrlEncoded (okSpanChars b pt).contains what buffer' length) ↔
    EndsInRange bufferSize 0 (urlPieces (okSpanChars b pt).contains what) := by
  have houtcome : UrlOutcome (okSpanChars b pt).contains bufferSize 0 front [] what back
      (pubnubUrlEncode b a front.length what bufferSize pt) :=
    urlOutcome_pubnubUrlEncode ha hbuffer hsize
  constructor
  · rintro ⟨a', result, heq, -⟩
    by_contra hends
    rw [houtcome.2 hends] at heq
    cases heq
  · intro hends
    obtain ⟨a', result, heq, buffer', hbytes', hlength', hresult⟩ := houtcome.1 hends
    refine ⟨a', result, heq, buffer', hbytes', hlength', fun length hlen => ?_⟩
    obtain ⟨rfl, cur, hstored⟩ := hresult length hlen
    exact urlEncoded_of_stored hstored

/-- A build with everything in it. -/
def everyApi : UrlEncodeBuild := ⟨true, true, true⟩

/-- A space and a comma in a buffer that is just large enough. -/
theorem pubnub_url_encode_right_escapes :
    ∃ a' result, pubnubUrlEncode everyApi (CharArray.blank 11) 0 (ascii "a b,") 11 .setMembers =
        some (a', result) ∧
      ∃ buffer', a'.bytes = [] ++ buffer' ++ [] ∧ buffer'.length = (11 : UInt64).toNat ∧
        ∀ length, result = some length →
          UrlEncoded (okSpanChars everyApi .setMembers).contains (ascii "a b,") buffer' length :=
  (pubnub_url_encode_right everyApi (CharArray.blank 11) [] (List.replicate 11 0) [] (ascii "a b,") 11
    .setMembers rfl rfl (by decide)).mpr (by decide +kernel)

/-- A run of 2 GiB, and a buffer with room for it. -/
def longRun : Bytes := List.replicate (2 ^ 31) 97

def longBuffer : UInt64 := 2 ^ 31 + 2

lemma length_longRun : longRun.length = 2 ^ 31 := List.length_replicate

/-- It is found to have room, and ends too far behind. -/
lemma not_endsInRange_longRun :
    ¬ EndsInRange longBuffer 0 (urlPieces (okSpanChars everyApi .publish).contains longRun) := by
  have hrun : ∀ c ∈ longRun, (okSpanChars everyApi .publish).contains c = true := by
    intro c hc
    rw [List.eq_of_mem_replicate hc]
    decide
  have hne : longRun ≠ [] := List.ne_nil_of_length_pos (by rw [length_longRun]; decide)
  have hpieces := @urlPieces_run _ longRun [] hrun hne (by simp)
  rw [List.append_nil] at hpieces
  rw [hpieces]
  intro hends
  have hlt := (hends (by rw [UrlPiece.hasRoom, length_longRun]; decide)).1
  rw [UrlPiece.text, length_longRun] at hlt
  omega

/-- **The length of a long string is no `int`.**  There is room for the run, it is copied, and its
    length is added to `i`; `buffer[i] = '\0'` is then a write before the buffer. -/
theorem pubnub_url_encode_not_always_right :
    pubnubUrlEncode everyApi (CharArray.blank longBuffer.toNat) 0 longRun longBuffer .publish = none :=
  have hwhole : (CharArray.blank longBuffer.toNat).bytes =
      [] ++ (CharArray.blank longBuffer.toNat).bytes ++ [] := (List.append_nil _).symm
  (urlOutcome_pubnubUrlEncode hwhole (CharArray.blank longBuffer.toNat).length_bytes
    (by decide)).2 not_endsInRange_longRun

end PubNub
