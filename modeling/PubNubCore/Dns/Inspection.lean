import PubNubCore.Dns.Codec
import Mathlib.Logic.Relation

/-!
# What the decoder of DNS responses looks at

The decoder again, with every access checked (`..Within`): a look at a byte behind the message, a
write behind the buffer for the name, an assertion that fails and a loop that does not end have no
result.

What goes wrong does so where the loop of `dns_label_decode` comes to a place that is
`LabelPlace.Wrong`.  The names of the question section and of the answers are decoded with a buffer
size that is one more than that of the message, so that the byte behind it counts as its own; and
where a text fills the buffer for the name up to its last byte, the dot of the next label takes that
byte, and the terminating zero is written behind it.
-/

namespace PubNub

/-! ## Checked accesses -/

namespace Datagram

variable (d : Datagram)

/-- A byte of the message. -/
def look (i : Nat) : Option UInt8 := if i < d.msgSize then some (d.read i) else none

/-- Some bytes of the message are looked at. -/
def looks (i count : Nat) : Option Unit := if i + count ≤ d.msgSize then some () else none

end Datagram

/-- A byte of the buffer for the name is written. -/
def writes (n i : Nat) : Option Unit := if i < n then some () else none

/-- The dot before a label that is not the first. -/
def writesDot (n : Nat) (decoded : Bytes) : Option Bytes :=
  if decoded = [] then some decoded
  else if decoded.length < n then some (decoded ++ ascii ".") else none

/-- `PUBNUB_ASSERT_OPT`. -/
def asserts (p : Prop) [Decidable p] : Option Unit := if p then some () else none

/-- `handle_offset`. -/
def handleOffsetWithin (d : Datagram) (pass reader bufferSize : Nat) : Option (Option Nat) := do
  asserts (0 < reader)
  if bufferSize ≤ reader + 1 then return none
  if maximumLoopPasses < pass then return none
  let high ← d.look reader
  let low ← d.look (reader + 1)
  let offset := (high.toNat &&& 0x3F) * 256 + low.toNat
  if offset < dnsHeaderSize then return none
  if bufferSize ≤ offset then return none
  return some offset

/-- The loop of `forced_skip`. -/
def forcedSkipLoopWithin (d : Datagram) (bufferSize : Nat) : Nat → Nat → Option (Option Nat)
  | 0, _ => none
  | fuel + 1, reader => do
      let b := (← d.look reader).toNat
      if b &&& 0xC0 = 0xC0 then return some (reader + 2)
      else if b = 0 then return some (reader + 1)
      else if b &&& 0xC0 = 0 then
        if bufferSize ≤ reader + b + 1 then return none
        else forcedSkipLoopWithin d bufferSize fuel (reader + b + 1)
      else return none

/-- `forced_skip`. -/
def forcedSkipWithin (d : Datagram) (bufferSize reader : Nat) : Option (Option Nat) := do
  asserts (0 < reader)
  asserts (reader < bufferSize)
  forcedSkipLoopWithin d bufferSize (bufferSize + 1) reader

/-- The loop of `dns_label_decode`. -/
def dnsLabelLoopWithin (d : Datagram) (n src bufferSize : Nat) :
    Nat → (decoded : Bytes) → (reader pass bytesToSkip : Nat) → Option LabelDecoded
  | 0, _, _, _, _ => none
  | fuel + 1, decoded, reader, pass, bytesToSkip => do
      let b := (← d.look reader).toNat
      if b &&& 0xC0 = 0xC0 then
        let bytesToSkip := if bytesToSkip = 0 then reader - src + 2 else bytesToSkip
        match ← handleOffsetWithin d (pass + 1) reader bufferSize with
        | none =>
            writes n decoded.length
            return ⟨false, decoded, bytesToSkip⟩
        | some reader =>
            dnsLabelLoopWithin d n src bufferSize fuel decoded reader (pass + 1) bytesToSkip
      else if b = 0 then
        return ⟨true, decoded, if bytesToSkip = 0 then reader - src + 1 else bytesToSkip⟩
      else if b &&& 0xC0 = 0 then
        let decoded ← writesDot n decoded
        if n ≤ decoded.length + b then
          if bytesToSkip = 0 then
            let skipped ← forcedSkipWithin d bufferSize reader
            writes n decoded.length
            match skipped with
            | some reader => return ⟨false, decoded, reader - src⟩
            | none => return ⟨false, decoded, 0⟩
          else
            writes n decoded.length
            return ⟨false, decoded, bytesToSkip⟩
        else if bufferSize ≤ reader + b + 1 then
          writes n decoded.length
          return ⟨false, decoded, bytesToSkip⟩
        else
          d.looks (reader + 1) b
          writes n (decoded.length + b)
          dnsLabelLoopWithin d n src bufferSize fuel
            (decoded ++ (List.range b).map fun i => d.read (reader + 1 + i))
            (reader + b + 1) pass bytesToSkip
      else
        writes n decoded.length
        return ⟨false, decoded, bytesToSkip⟩

/-- `dns_label_decode`. -/
def dnsLabelDecodeWithin (d : Datagram) (n src bufferSize : Nat) : Option LabelDecoded := do
  asserts (0 < n)
  asserts (src < bufferSize)
  dnsLabelLoopWithin d n src bufferSize ((maximumLoopPasses + 2) * (bufferSize + 2)) [] src 0 0

/-- `read_header`. -/
def readHeaderWithin (d : Datagram) : Option (Option (Nat × Nat)) := do
  if d.msgSize < dnsHeaderSize then return none
  d.looks 2 6
  return readHeader d

/-- The loop of `skip_questions`. -/
def skipQuestionsWithin (d : Datagram) : Nat → Nat → Option (Option Nat)
  | 0, reader => some (some reader)
  | count + 1, reader => do
      if d.msgSize < reader + questionDataSize then return none
      let name ← dnsLabelDecodeWithin d 256 reader (d.msgSize + 1)
      if name.ok = false ∧ name.bytesToSkip = 0 then return none
      else skipQuestionsWithin d count (reader + name.bytesToSkip + questionDataSize)

/-- `check_answer` on an address of some length: its data and its time to live. -/
def checkAnswerLooks (b : AddressBuild) (d : Datagram) (reader rDataType rDataLen : Nat) :
    Option Unit :=
  if (rDataType = dnsA ∧ rDataLen = 4) ∨
      (b.useIpv6 = true ∧ rDataType = dnsAaaa ∧ rDataLen = 16) then do
    d.looks reader rDataLen
    asserts (resourceDataSize ≤ reader)
    d.looks (reader - 6) 4
  else some ()

/-- The loop of `find_the_answer`. -/
def findTheAnswerWithin (b : AddressBuild) (d : Datagram) :
    Nat → Nat → FoundAddresses → Option (Bool × FoundAddresses)
  | 0, _, f => some (f.addressFound, f)
  | count + 1, reader, f => do
      let name ← dnsLabelDecodeWithin d 256 reader (d.msgSize + 1)
      if name.ok = false ∧ name.bytesToSkip = 0 then return (false, f)
      let reader := reader + name.bytesToSkip + resourceDataSize
      if d.msgSize < reader then return (false, f)
      d.looks (reader - 2) 2
      let rDataLen := d.read16 (reader - 2)
      if d.msgSize < reader + rDataLen then return (false, f)
      d.looks (reader - 10) 2
      let rDataType := d.read16 (reader - 10)
      checkAnswerLooks b d reader rDataType rDataLen
      let checked := checkAnswer b d reader rDataType rDataLen f
      if checked.1 = true ∧ b.useMultipleAddresses = false then return (true, checked.2)
      findTheAnswerWithin b d count (reader + rDataLen) checked.2

/-- The question at the front of `pbdns_pick_resolved_addresses`. -/
def questionTypeWithin (d : Datagram) (qCount : Nat) : Option (Option Nat) := do
  if qCount = 0 then return none
  let name ← dnsLabelDecodeWithin d 256 dnsHeaderSize d.msgSize
  if name.ok = true ∧ dnsHeaderSize + name.bytesToSkip + 2 ≤ d.msgSize then
    d.looks (dnsHeaderSize + name.bytesToSkip) 2
    return some (d.read16 (dnsHeaderSize + name.bytesToSkip))
  return none

/-- `pbdns_pick_resolved_addresses`. -/
def pbdnsPickResolvedAddressesWithin (b : AddressBuild) (d : Datagram) (spare : MultiAddresses) :
    Option Picked := do
  let f : FoundAddresses := ⟨false, Vector.replicate 4 0, Vector.replicate 16 0, spare⟩
  match ← readHeaderWithin d with
  | none => return ⟨false, none, f⟩
  | some (qCount, ansCount) =>
      let type ← questionTypeWithin d qCount
      if ansCount = 0 then return ⟨false, type, f⟩
      asserts (0 < d.msgSize)
      match ← skipQuestionsWithin d qCount dnsHeaderSize with
      | none => return ⟨false, type, f⟩
      | some reader =>
          if d.msgSize < reader then return ⟨false, type, f⟩
          asserts (0 < reader)
          asserts (reader < d.msgSize)
          let r ← findTheAnswerWithin b d ansCount reader f
          return ⟨r.1, type, r.2⟩

/-! ## Where it goes wrong -/

/-- Where the loop of `dns_label_decode` is: how much of the text is written, what is read next, and
    how many pointers were followed. -/
structure LabelPlace where
  written : Nat
  reader : Nat
  pass : Nat

namespace LabelPlace

/-- Where the next label is written: behind a dot, unless it is the first. -/
def dotted (place : LabelPlace) : Nat := if place.written = 0 then 0 else place.written + 1

/-- The loop goes on, behind a label or where a pointer leads. -/
inductive Step (d : Datagram) (n size : Nat) : LabelPlace → LabelPlace → Prop
  | label {place : LabelPlace} {b : Nat} (byte : (d.read place.reader).toNat = b) (ne : b ≠ 0)
      (isLabel : b &&& 0xC0 = 0) (room : place.dotted + b < n)
      (inside : place.reader + b + 1 < size) :
      Step d n size place ⟨place.dotted + b, place.reader + b + 1, place.pass⟩
  | pointer {place : LabelPlace} {offset : Nat}
      (isPointer : (d.read place.reader).toNat &&& 0xC0 = 0xC0) (inside : place.reader + 1 < size)
      (passes : place.pass + 1 ≤ maximumLoopPasses)
      (leads : ((d.read place.reader).toNat &&& 0x3F) * 256 + (d.read (place.reader + 1)).toNat =
        offset)
      (low : dnsHeaderSize ≤ offset) (high : offset < size) :
      Step d n size place ⟨place.written, offset, place.pass + 1⟩

/-- `forced_skip` comes to the end of the message. -/
inductive SkipsBehind (d : Datagram) (size : Nat) : Nat → Prop
  | here {reader : Nat} (behind : d.msgSize ≤ reader) : SkipsBehind d size reader
  | next {reader b : Nat} (byte : (d.read reader).toNat = b) (ne : b ≠ 0) (isLabel : b &&& 0xC0 = 0)
      (inside : reader + b + 1 < size) (next : SkipsBehind d size (reader + b + 1)) :
      SkipsBehind d size reader

/-- The next access is not allowed. -/
inductive Wrong (d : Datagram) (n size : Nat) : LabelPlace → Prop
  | behind {place : LabelPlace} (behind : d.msgSize ≤ place.reader) : Wrong d n size place
  /-- Only the first byte of a pointer lies in the message. -/
  | pointer {place : LabelPlace} (isPointer : (d.read place.reader).toNat &&& 0xC0 = 0xC0)
      (inside : place.reader + 1 < size) (passes : place.pass + 1 ≤ maximumLoopPasses)
      (behind : d.msgSize ≤ place.reader + 1) : Wrong d n size place
  /-- The dot has taken the last byte of the buffer. -/
  | full {place : LabelPlace} {b : Nat} (byte : (d.read place.reader).toNat = b) (ne : b ≠ 0)
      (isLabel : b &&& 0xC0 = 0) (full : n ≤ place.dotted) : Wrong d n size place
  | skip {place : LabelPlace} {b : Nat} (byte : (d.read place.reader).toNat = b) (ne : b ≠ 0)
      (isLabel : b &&& 0xC0 = 0) (long : n ≤ place.dotted + b) (first : place.pass = 0)
      (skips : SkipsBehind d size place.reader) : Wrong d n size place

/-- What is left of the loop: each pointer may lead anywhere, but only so many are followed. -/
def measure (size : Nat) (place : LabelPlace) : Nat :=
  (maximumLoopPasses + 1 - place.pass) * (size + 1) + (size - place.reader)

end LabelPlace

open Relation LabelPlace

/-- Decoding the name at a place goes wrong: it begins behind the buffer, or the loop comes to a
    place that is wrong. -/
def NameStrays (d : Datagram) (src size : Nat) : Prop :=
  size ≤ src ∨ ∃ place, ReflTransGen (Step d 256 size) ⟨0, src, 0⟩ place ∧ place.Wrong d 256 size

/-- Where the name at a place ends: behind the zero, or behind its first pointer. -/
inductive NameEnds (d : Datagram) (size : Nat) : Nat → Nat → Prop
  | zero {reader : Nat} (byte : (d.read reader).toNat = 0) : NameEnds d size reader (reader + 1)
  | pointer {reader : Nat} (isPointer : (d.read reader).toNat &&& 0xC0 = 0xC0) :
      NameEnds d size reader (reader + 2)
  | label {reader b e : Nat} (byte : (d.read reader).toNat = b) (ne : b ≠ 0)
      (isLabel : b &&& 0xC0 = 0) (inside : reader + b + 1 < size)
      (next : NameEnds d size (reader + b + 1) e) : NameEnds d size reader e

/-- One of the questions has a name that goes wrong. -/
inductive QuestionsStray (d : Datagram) : Nat → Nat → Prop
  | here {count reader : Nat} (inside : reader + questionDataSize ≤ d.msgSize)
      (strays : NameStrays d reader (d.msgSize + 1)) : QuestionsStray d (count + 1) reader
  | next {count reader e : Nat} (inside : reader + questionDataSize ≤ d.msgSize)
      (ends : NameEnds d (d.msgSize + 1) reader e)
      (next : QuestionsStray d count (e + questionDataSize)) : QuestionsStray d (count + 1) reader

/-- Where the questions end. -/
inductive QuestionsEnd (d : Datagram) : Nat → Nat → Nat → Prop
  | done {reader : Nat} : QuestionsEnd d 0 reader reader
  | next {count reader e last : Nat} (inside : reader + questionDataSize ≤ d.msgSize)
      (ends : NameEnds d (d.msgSize + 1) reader e)
      (next : QuestionsEnd d count (e + questionDataSize) last) :
      QuestionsEnd d (count + 1) reader last

/-- The record with a name that ends there holds an address that can be used. -/
def IsAddress (b : AddressBuild) (d : Datagram) (e : Nat) : Prop :=
  (d.read16 e = dnsA ∧ d.read16 (e + 8) = 4) ∨
    (b.useIpv6 = true ∧ d.read16 e = dnsAaaa ∧ d.read16 (e + 8) = 16)

/-- One of the answers that are looked at has a name that goes wrong. -/
inductive AnswersStray (b : AddressBuild) (d : Datagram) : Nat → Nat → Prop
  | here {count reader : Nat} (strays : NameStrays d reader (d.msgSize + 1)) :
      AnswersStray b d (count + 1) reader
  | next {count reader e : Nat} (ends : NameEnds d (d.msgSize + 1) reader e)
      (inside : e + resourceDataSize + d.read16 (e + 8) ≤ d.msgSize)
      (goesOn : IsAddress b d e → b.useMultipleAddresses = true)
      (next : AnswersStray b d count (e + resourceDataSize + d.read16 (e + 8))) :
      AnswersStray b d (count + 1) reader

/-- Looking at the answers goes wrong: they begin where the message ends, or one of them has a name
    that does. -/
def AnswersGoWrong (b : AddressBuild) (d : Datagram) (reader : Nat) : Prop :=
  reader = d.msgSize ∨ (reader < d.msgSize ∧ AnswersStray b d (d.read16 6) reader)

/-- What the header must be for the decoder to go on. -/
def HeaderAccepted (d : Datagram) : Prop :=
  dnsHeaderSize ≤ d.msgSize ∧ d.read16 2 &&& 0x8000 ≠ 0 ∧ d.read16 2 &&& 0x000F = 0

/-- Decoding a message goes wrong: at the name of its first question, while the questions are
    skipped, or at the answers. -/
def GoesWrong (b : AddressBuild) (d : Datagram) : Prop :=
  HeaderAccepted d ∧
    ((d.read16 4 ≠ 0 ∧ NameStrays d dnsHeaderSize d.msgSize) ∨
      (d.read16 6 ≠ 0 ∧
        (QuestionsStray d (d.read16 4) dnsHeaderSize ∨
          ∃ reader, QuestionsEnd d (d.read16 4) dnsHeaderSize reader ∧ AnswersGoWrong b d reader)))

/-! ## The loop over the labels -/

section Labels

variable {d : Datagram} {n src size : Nat} {place place' : LabelPlace} {decoded : Bytes}

@[simp] lemma look_of_lt {i : Nat} (h : i < d.msgSize) : d.look i = some (d.read i) := if_pos h

@[simp] lemma look_of_le {i : Nat} (h : d.msgSize ≤ i) : d.look i = none := if_neg h.not_gt

@[simp] lemma looks_of_le {i count : Nat} (h : i + count ≤ d.msgSize) :
    d.looks i count = some () := if_pos h

@[simp] lemma writes_of_lt {i : Nat} (h : i < n) : writes n i = some () := if_pos h

@[simp] lemma writes_of_le {i : Nat} (h : n ≤ i) : writes n i = none := if_neg h.not_gt

@[simp] lemma writesDot_of_lt (h : decoded.length < n) : writesDot n decoded =
    some (if decoded = [] then decoded else decoded ++ ascii ".") := by
  by_cases hnil : decoded = []
  · simp [writesDot, hnil]
  · simp [writesDot, hnil, h]

@[simp] lemma asserts_of {p : Prop} [Decidable p] (h : p) : asserts p = some () := if_pos h

@[simp] lemma asserts_of_not {p : Prop} [Decidable p] (h : ¬p) : asserts p = none := if_neg h

lemma LabelPlace.Step.measure_lt (h : Step d n size place place') (hreader : place.reader < size) :
    place'.measure size < place.measure size ∧ 0 < place'.reader ∧ place'.reader < size := by
  cases h with
  | label byte ne isLabel room inside =>
      simp only [LabelPlace.measure]
      omega
  | pointer isPointer inside passes leads low high =>
      rw [dnsHeaderSize] at low
      refine ⟨?_, by simp only; omega, high⟩
      obtain ⟨k, hk⟩ : ∃ k, maximumLoopPasses + 1 - place.pass = k + 1 :=
        ⟨maximumLoopPasses - place.pass, by omega⟩
      have hk' : maximumLoopPasses + 1 - (place.pass + 1) = k := by omega
      simp only [LabelPlace.measure]
      rw [hk, hk', Nat.succ_mul]
      omega

/-- The length of what is written behind the dot. -/
lemma length_dotted (hplace : decoded.length = place.written) :
    (if decoded = [] then decoded else decoded ++ ascii ".").length = place.dotted := by
  rw [dotted, ← hplace]
  by_cases h : decoded = []
  · simp [h]
  · have hlen : decoded.length ≠ 0 := by simpa using h
    rw [if_neg h, if_neg hlen, List.length_append]
    rfl

/-! ### Skipping -/

/-- Once the end of the message is behind the skipping, it has no result. -/
lemma forcedSkipLoopWithin_none {reader : Nat} (h : SkipsBehind d size reader) (fuel : Nat) :
    forcedSkipLoopWithin d size fuel reader = none := by
  induction h generalizing fuel with
  | here behind =>
      cases fuel with
      | zero => rfl
      | succ fuel => simp [forcedSkipLoopWithin, behind]
  | @next reader b byte ne isLabel inside next ih =>
      cases fuel with
      | zero => rfl
      | succ fuel =>
          by_cases hlook : reader < d.msgSize
          · simp [forcedSkipLoopWithin, hlook, byte, ne, isLabel, inside.not_ge, ih fuel]
          · simp [forcedSkipLoopWithin, not_lt.mp hlook]

lemma forcedSkipLoopWithin_some {fuel reader : Nat} (h : ¬SkipsBehind d size reader)
    (hfuel : size - reader < fuel) :
    forcedSkipLoopWithin d size fuel reader = some (forcedSkip d size fuel reader) := by
  induction fuel generalizing reader with
  | zero => omega
  | succ fuel ih =>
      have hlook : reader < d.msgSize := by
        by_contra hlt
        exact h (.here (not_lt.mp hlt))
      obtain ⟨b, byte⟩ : ∃ b, (d.read reader).toNat = b := ⟨_, rfl⟩
      simp only [forcedSkipLoopWithin, forcedSkip, look_of_lt hlook, Option.bind_eq_bind,
        Option.bind_some, byte]
      split
      · rfl
      · split
        · rfl
        · rename_i ne
          split
          · rename_i isLabel
            split
            · rfl
            · rename_i inside
              have inside' : reader + b + 1 < size := not_le.mp inside
              refine ih (fun hnext => h ?_) (by omega)
              exact .next byte ne isLabel inside' hnext
          · rfl

lemma forcedSkipWithin_some {reader : Nat} (h : ¬SkipsBehind d size reader) (hpos : 0 < reader)
    (hinside : reader < size) :
    forcedSkipWithin d size reader = some (forcedSkip d size (size + 1) reader) := by
  rw [forcedSkipWithin, asserts_of hpos, asserts_of hinside]
  exact forcedSkipLoopWithin_some h (by omega)

lemma forcedSkipWithin_none {reader : Nat} (h : SkipsBehind d size reader) (hpos : 0 < reader)
    (hinside : reader < size) : forcedSkipWithin d size reader = none := by
  rw [forcedSkipWithin, asserts_of hpos, asserts_of hinside]
  exact forcedSkipLoopWithin_none h _

/-- Skipping a name comes to its end. -/
lemma forcedSkip_of_ends {fuel reader e : Nat} (h : NameEnds d size reader e)
    (hfuel : size - reader < fuel) : forcedSkip d size fuel reader = some e := by
  induction h generalizing fuel with
  | zero byte =>
      obtain ⟨fuel, rfl⟩ : ∃ k, fuel = k + 1 := ⟨fuel - 1, by omega⟩
      simp [forcedSkip, byte]
  | pointer isPointer =>
      obtain ⟨fuel, rfl⟩ : ∃ k, fuel = k + 1 := ⟨fuel - 1, by omega⟩
      simp [forcedSkip, isPointer]
  | label byte ne isLabel inside next ih =>
      obtain ⟨fuel, rfl⟩ : ∃ k, fuel = k + 1 := ⟨fuel - 1, by omega⟩
      have hnext : forcedSkip d size fuel _ = _ := ih (by omega)
      simp [forcedSkip, byte, ne, isLabel, inside.not_ge, hnext]

/-- Skipping fails on a name without an end. -/
lemma forcedSkip_of_endless {fuel reader : Nat} (h : ∀ e, ¬NameEnds d size reader e) :
    forcedSkip d size fuel reader = none := by
  induction fuel generalizing reader with
  | zero => rfl
  | succ fuel ih =>
      obtain ⟨b, byte⟩ : ∃ b, (d.read reader).toNat = b := ⟨_, rfl⟩
      simp only [forcedSkip, byte]
      split
      · rename_i isPointer
        exact absurd (.pointer (by rw [byte]; exact isPointer)) (h (reader + 2))
      · split
        · rename_i zero
          exact absurd (.zero (by rw [byte]; exact zero)) (h (reader + 1))
        · rename_i ne
          split
          · rename_i isLabel
            split
            · rfl
            · rename_i inside
              refine ih fun e hnext => h e ?_
              exact .label byte ne isLabel (not_le.mp inside) hnext
          · rfl

/-! ### The end of a name -/

/-- What is to be skipped is settled once and for all. -/
lemma bytesToSkip_settled {fuel reader pass skip : Nat} (hskip : skip ≠ 0) :
    (dnsLabelLoop d n src size fuel decoded reader pass skip).bytesToSkip = skip := by
  induction fuel generalizing decoded reader pass with
  | zero => rfl
  | succ fuel ih =>
      simp only [dnsLabelLoop, if_neg hskip]
      generalize (if decoded = [] then decoded else decoded ++ ascii ".") = text
      split
      · split
        · rfl
        · exact ih
      · split
        · rfl
        · split
          · split
            · rfl
            · split
              · rfl
              · exact ih
          · rfl

/-- The bytes to skip lead to the end of the name, whether its text can be decoded or not. -/
lemma bytesToSkip_of_ends {fuel reader e : Nat} (h : NameEnds d size reader e) (hsrc : src ≤ reader)
    (hfuel : size - reader < fuel) :
    src + (dnsLabelLoop d n src size fuel decoded reader 0 0).bytesToSkip = e ∧ src < e := by
  have hsize : size - reader < size + 1 := by omega
  have hskip := forcedSkip_of_ends h hsize
  induction h generalizing fuel decoded with
  | zero byte =>
      obtain ⟨fuel, rfl⟩ : ∃ k, fuel = k + 1 := ⟨fuel - 1, by omega⟩
      simp only [dnsLabelLoop, byte]
      simp
      omega
  | @pointer reader isPointer =>
      obtain ⟨fuel, rfl⟩ : ∃ k, fuel = k + 1 := ⟨fuel - 1, by omega⟩
      have hne : reader - src + 2 ≠ 0 := by omega
      simp only [dnsLabelLoop, isPointer, if_true]
      split
      · simp only
        omega
      · rw [bytesToSkip_settled hne]
        omega
  | @label reader b e byte ne isLabel inside next ih =>
      obtain ⟨fuel, rfl⟩ : ∃ k, fuel = k + 1 := ⟨fuel - 1, by omega⟩
      have hnext : size - (reader + b + 1) < size + 1 := by omega
      have hlt : src < e := by
        have hend := @ih decoded fuel (by omega) (by omega) hnext (forcedSkip_of_ends next hnext)
        exact hend.2
      simp only [dnsLabelLoop, byte, isLabel, ne, if_true, if_false]
      rw [if_neg (by decide), if_neg inside.not_ge, hskip]
      generalize (if decoded = [] then decoded else decoded ++ ascii ".") = text
      split
      · simp only
        omega
      · exact ih (by omega) (by omega) hnext (forcedSkip_of_ends next hnext)

/-- A name without an end fails and gives nothing to skip. -/
lemma dnsLabelLoop_of_endless {fuel reader : Nat} (h : ∀ e, ¬NameEnds d size reader e) :
    (dnsLabelLoop d n src size fuel decoded reader 0 0).ok = false ∧
      (dnsLabelLoop d n src size fuel decoded reader 0 0).bytesToSkip = 0 := by
  induction fuel generalizing reader decoded with
  | zero => exact ⟨rfl, rfl⟩
  | succ fuel ih =>
      obtain ⟨b, byte⟩ : ∃ b, (d.read reader).toNat = b := ⟨_, rfl⟩
      simp only [dnsLabelLoop, byte, forcedSkip_of_endless h, if_true]
      generalize (if decoded = [] then decoded else decoded ++ ascii ".") = text
      split
      · rename_i isPointer
        exact absurd (.pointer (by rw [byte]; exact isPointer)) (h (reader + 2))
      · split
        · rename_i zero
          exact absurd (.zero (by rw [byte]; exact zero)) (h (reader + 1))
        · rename_i ne
          split
          · rename_i isLabel
            split
            · exact ⟨rfl, rfl⟩
            · split
              · exact ⟨rfl, rfl⟩
              · rename_i inside
                refine ih fun e hnext => h e ?_
                exact .label byte ne isLabel (not_le.mp inside) hnext
          · exact ⟨rfl, rfl⟩

/-- What is skipped of a name that has an end. -/
lemma bytesToSkip_eq {e : Nat} (h : NameEnds d size src e) :
    src + (dnsLabelDecode d n src size).bytesToSkip = e ∧ src < e := by
  have hfuel : size - src < (maximumLoopPasses + 2) * (size + 2) := by
    rw [maximumLoopPasses]
    omega
  exact bytesToSkip_of_ends h le_rfl hfuel

/-! ### Decoding a name -/

/-- Where the text, the position and the pointers followed are those of a place. -/
structure Follows (n size : Nat) (decoded : Bytes) (place : LabelPlace) (skip : Nat) : Prop where
  length : decoded.length = place.written
  room : place.written < n
  pos : 0 < place.reader
  inside : place.reader < size
  settled : skip = 0 ↔ place.pass = 0

/-- Following a pointer as the checked loop does it. -/
lemma handleOffsetWithin_of_lt {pass reader : Nat} (hpos : 0 < reader)
    (hlook : reader + 1 < size → pass ≤ maximumLoopPasses → reader + 1 < d.msgSize) :
    handleOffsetWithin d pass reader size = some (handleOffset d pass reader size) := by
  simp only [handleOffsetWithin, handleOffset, asserts_of hpos, Option.bind_eq_bind,
    Option.bind_some]
  split
  · rfl
  · rename_i hsize
    split
    · rfl
    · rename_i hpass
      have hlast := hlook (not_le.mp hsize) (not_lt.mp hpass)
      rw [look_of_lt (by omega), look_of_lt hlast]
      simp only [Option.bind_some]
      split
      · rfl
      · split
        · rfl
        · rfl

lemma handleOffset_eq_some {pass reader offset : Nat} :
    handleOffset d pass reader size = some offset ↔
      reader + 1 < size ∧ pass ≤ maximumLoopPasses ∧
        ((d.read reader).toNat &&& 0x3F) * 256 + (d.read (reader + 1)).toNat = offset ∧
        dnsHeaderSize ≤ offset ∧ offset < size := by
  constructor
  · intro h
    rw [handleOffset] at h
    dsimp only at h
    split at h
    · cases h
    · split at h
      · cases h
      · split at h
        · cases h
        · split at h
          · cases h
          · cases h
            refine ⟨by omega, by omega, rfl, by omega, by omega⟩
  · rintro ⟨hsize, hpass, rfl, hlow, hhigh⟩
    simp only [handleOffset]
    rw [if_neg hsize.not_ge, if_neg hpass.not_gt, if_neg hlow.not_gt, if_neg hhigh.not_ge]

/-- What one round of the loop does from a place that is not wrong: the name is done, or the loop
    goes on at the next place, with every access as it should be. -/
structure NextRound (d : Datagram) (n src size : Nat) (decoded : Bytes) (place : LabelPlace)
    (skip : Nat) (decoded' : Bytes) (place' : LabelPlace) (skip' : Nat) : Prop where
  step : Step d n size place place'
  follows : Follows n size decoded' place' skip'
  within : ∀ fuel, dnsLabelLoopWithin d n src size (fuel + 1) decoded place.reader place.pass skip =
    dnsLabelLoopWithin d n src size fuel decoded' place'.reader place'.pass skip'
  plain : ∀ fuel, dnsLabelLoop d n src size (fuel + 1) decoded place.reader place.pass skip =
    dnsLabelLoop d n src size fuel decoded' place'.reader place'.pass skip'

/-- The loop ends here, with every access as it should be. -/
structure LastRound (d : Datagram) (n src size : Nat) (decoded : Bytes) (place : LabelPlace)
    (skip : Nat) : Prop where
  last : ∀ place', ¬Step d n size place place'
  within : ∀ fuel, dnsLabelLoopWithin d n src size (fuel + 1) decoded place.reader place.pass skip =
    some (dnsLabelLoop d n src size (fuel + 1) decoded place.reader place.pass skip)

section Rounds

variable {skip : Nat}

/-- A round at a pointer. -/
lemma round_pointer (hf : Follows n size decoded place skip)
    (isPointer : (d.read place.reader).toNat &&& 0xC0 = 0xC0) (hw : ¬place.Wrong d n size) :
    LastRound d n src size decoded place skip ∨
      ∃ decoded' place' skip', NextRound d n src size decoded place skip decoded' place' skip' := by
  have hlook : place.reader < d.msgSize := by
    by_contra hlt
    exact hw (.behind (not_lt.mp hlt))
  have hoffset : handleOffsetWithin d (place.pass + 1) place.reader size =
      some (handleOffset d (place.pass + 1) place.reader size) := by
    refine handleOffsetWithin_of_lt hf.pos fun hsize hpass => ?_
    by_contra hlt
    exact hw (.pointer isPointer hsize hpass (not_lt.mp hlt))
  cases hnext : handleOffset d (place.pass + 1) place.reader size with
  | none =>
      left
      constructor
      · rintro place' (⟨byte, ne, isLabel, -, -⟩ | ⟨-, hsize, hpass, leads, hlow, hhigh⟩)
        · rw [byte, isLabel] at isPointer
          cases isPointer
        · rw [handleOffset_eq_some.mpr ⟨hsize, hpass, leads, hlow, hhigh⟩] at hnext
          cases hnext
      · intro fuel
        simp only [dnsLabelLoopWithin, dnsLabelLoop, look_of_lt hlook, Option.bind_eq_bind,
          Option.bind_some, if_pos isPointer, hoffset, hnext]
        rw [writes_of_lt (by rw [hf.length]; exact hf.room)]
        rfl
  | some offset =>
      right
      obtain ⟨hsize, hpass, leads, hlow, hhigh⟩ := handleOffset_eq_some.mp hnext
      have hpos : 0 < offset := lt_of_lt_of_le (by decide) hlow
      refine ⟨decoded, ⟨place.written, offset, place.pass + 1⟩,
        if skip = 0 then place.reader - src + 2 else skip,
        .pointer isPointer hsize hpass leads hlow hhigh, ?_, ?_, ?_⟩
      · refine ⟨hf.length, hf.room, hpos, hhigh, ?_⟩
        simp only [Nat.add_eq_zero_iff, one_ne_zero, and_false, iff_false]
        split
        · omega
        · assumption
      · intro fuel
        simp only [dnsLabelLoopWithin, look_of_lt hlook, Option.bind_eq_bind, Option.bind_some,
          if_pos isPointer, hoffset, hnext]
      · intro fuel
        simp only [dnsLabelLoop, if_pos isPointer, hnext]

/-- A round at the zero that ends a name, or at a byte that is nothing at all. -/
lemma round_other (hf : Follows n size decoded place skip)
    (notPointer : (d.read place.reader).toNat &&& 0xC0 ≠ 0xC0)
    (notLabel : (d.read place.reader).toNat = 0 ∨ (d.read place.reader).toNat &&& 0xC0 ≠ 0)
    (hw : ¬place.Wrong d n size) : LastRound d n src size decoded place skip := by
  have hlook : place.reader < d.msgSize := by
    by_contra hlt
    exact hw (.behind (not_lt.mp hlt))
  constructor
  · rintro place' (⟨byte, ne, isLabel, -, -⟩ | ⟨isPointer, -⟩)
    · rw [byte] at notLabel
      exact notLabel.elim ne fun h => h isLabel
    · exact notPointer isPointer
  · intro fuel
    rw [dnsLabelLoopWithin, dnsLabelLoop, look_of_lt hlook]
    simp only [Option.bind_eq_bind, Option.bind_some, if_neg notPointer]
    split
    · rfl
    · rename_i ne
      rw [if_neg (notLabel.resolve_left ne), writes_of_lt (by rw [hf.length]; exact hf.room),
        if_neg (notLabel.resolve_left ne)]
      rfl

/-- A round at a label. -/
lemma round_label (hf : Follows n size decoded place skip) {b : Nat}
    (byte : (d.read place.reader).toNat = b) (ne : b ≠ 0) (isLabel : b &&& 0xC0 = 0)
    (hsize : size ≤ d.msgSize + 1) (hw : ¬place.Wrong d n size) :
    LastRound d n src size decoded place skip ∨
      ∃ decoded' place' skip', NextRound d n src size decoded place skip decoded' place' skip' := by
  have hlook : place.reader < d.msgSize := by
    by_contra hlt
    exact hw (.behind (not_lt.mp hlt))
  have hfull : place.dotted < n := by
    by_contra hlt
    exact hw (.full byte ne isLabel (not_lt.mp hlt))
  have notPointer : ¬b &&& 0xC0 = 0xC0 := by
    rw [isLabel]
    decide
  have htext := length_dotted hf.length
  have hdot := writesDot_of_lt (by rw [hf.length]; exact hf.room : decoded.length < n)
  have hstop {place' : LabelPlace} (hstep : Step d n size place place') :
      place.dotted + b < n ∧ place.reader + b + 1 < size := by
    obtain ⟨byte', -, -, hroom, hinside⟩ | ⟨isPointer, -⟩ := hstep
    · rw [byte] at byte'
      subst byte'
      exact ⟨hroom, hinside⟩
    · exact absurd (byte ▸ isPointer) notPointer
  obtain ⟨text, ht⟩ : ∃ text, (if decoded = [] then decoded else decoded ++ ascii ".") = text :=
    ⟨_, rfl⟩
  rw [ht] at htext hdot
  by_cases hroom : n ≤ place.dotted + b
  · left
    refine ⟨fun place' hstep => absurd (hstop hstep).1 hroom.not_gt, fun fuel => ?_⟩
    rw [dnsLabelLoopWithin, dnsLabelLoop, look_of_lt hlook, hdot]
    simp only [Option.bind_eq_bind, Option.bind_some, byte, if_neg notPointer, if_neg ne,
      if_pos isLabel, ht, htext, if_pos hroom, writes_of_lt hfull]
    split
    · rename_i hskip
      have hnot : ¬SkipsBehind d size place.reader := fun hskips =>
        hw (.skip byte ne isLabel hroom (hf.settled.mp hskip) hskips)
      rw [forcedSkipWithin_some hnot hf.pos hf.inside, Option.bind_some]
      cases forcedSkip d size (size + 1) place.reader with
      | none => rfl
      | some reader => rfl
    · rfl
  · have hroom' : place.dotted + b < n := not_le.mp hroom
    by_cases hinside : size ≤ place.reader + b + 1
    · left
      refine ⟨fun place' hstep => absurd (hstop hstep).2 hinside.not_gt, fun fuel => ?_⟩
      rw [dnsLabelLoopWithin, dnsLabelLoop, look_of_lt hlook, hdot]
      simp only [Option.bind_eq_bind, Option.bind_some, byte, if_neg notPointer, if_neg ne,
        if_pos isLabel, ht, htext, if_neg hroom, if_pos hinside, writes_of_lt hfull]
      rfl
    · right
      have hinside' : place.reader + b + 1 < size := not_le.mp hinside
      refine ⟨text ++ (List.range b).map fun i => d.read (place.reader + 1 + i),
        ⟨place.dotted + b, place.reader + b + 1, place.pass⟩, skip,
        .label byte ne isLabel hroom' hinside', ?_, fun fuel => ?_, fun fuel => ?_⟩
      · refine ⟨?_, hroom', Nat.succ_pos _, hinside', hf.settled⟩
        rw [List.length_append, htext, List.length_map, List.length_range]
      · have hlooks : place.reader + 1 + b ≤ d.msgSize := by omega
        rw [dnsLabelLoopWithin, look_of_lt hlook, hdot]
        simp only [Option.bind_eq_bind, Option.bind_some, byte, if_neg notPointer, if_neg ne,
          if_pos isLabel, htext, if_neg hroom, if_neg hinside, looks_of_le hlooks,
          writes_of_lt hroom']
      · rw [dnsLabelLoop]
        simp only [byte, if_neg notPointer, if_neg ne, if_pos isLabel, ht, htext, if_neg hroom,
          if_neg hinside]

/-- One round from any place. -/
lemma round_cases (hf : Follows n size decoded place skip) (hsize : size ≤ d.msgSize + 1)
    (hw : ¬place.Wrong d n size) :
    LastRound d n src size decoded place skip ∨
      ∃ decoded' place' skip', NextRound d n src size decoded place skip decoded' place' skip' := by
  by_cases isPointer : (d.read place.reader).toNat &&& 0xC0 = 0xC0
  · exact round_pointer hf isPointer hw
  · by_cases zero : (d.read place.reader).toNat = 0
    · exact .inl (round_other hf isPointer (.inl zero) hw)
    · by_cases isLabel : (d.read place.reader).toNat &&& 0xC0 = 0
      · exact round_label hf rfl zero isLabel hsize hw
      · exact .inl (round_other hf isPointer (.inr isLabel) hw)

/-- A label for which there is no room, with an access that is not allowed. -/
lemma loopWithin_long (hf : Follows n size decoded place skip) {b : Nat}
    (byte : (d.read place.reader).toNat = b) (ne : b ≠ 0) (isLabel : b &&& 0xC0 = 0)
    (long : n ≤ place.dotted + b) (hlook : place.reader < d.msgSize)
    (hbad : n ≤ place.dotted ∨ (skip = 0 ∧ forcedSkipWithin d size place.reader = none))
    (fuel : Nat) :
    dnsLabelLoopWithin d n src size (fuel + 1) decoded place.reader place.pass skip = none := by
  have notPointer : ¬b &&& 0xC0 = 0xC0 := by
    rw [isLabel]
    decide
  have hdot := writesDot_of_lt (by rw [hf.length]; exact hf.room : decoded.length < n)
  rw [dnsLabelLoopWithin, look_of_lt hlook, hdot]
  simp only [Option.bind_eq_bind, Option.bind_some, byte, if_neg notPointer, if_neg ne,
    if_pos isLabel, length_dotted hf.length, if_pos long]
  obtain hfull | ⟨hskip, hnone⟩ := hbad
  · rw [writes_of_le hfull]
    split
    · cases forcedSkipWithin d size place.reader with
      | none => rfl
      | some skipped => rfl
    · rfl
  · rw [if_pos hskip, hnone]
    rfl

/-- A place that is wrong is where the checked loop has no result. -/
lemma loopWithin_wrong (hf : Follows n size decoded place skip) (hw : place.Wrong d n size)
    (fuel : Nat) : dnsLabelLoopWithin d n src size fuel decoded place.reader place.pass skip =
      none := by
  cases fuel with
  | zero => rfl
  | succ fuel =>
      by_cases hlook : place.reader < d.msgSize
      · cases hw with
        | behind behind => exact absurd hlook behind.not_gt
        | pointer isPointer inside passes behind =>
            have hoffset : handleOffsetWithin d (place.pass + 1) place.reader size = none := by
              simp [handleOffsetWithin, hf.pos, inside.not_ge, passes.not_gt, hlook, behind]
            rw [dnsLabelLoopWithin, look_of_lt hlook]
            simp [isPointer, hoffset]
        | @full b byte ne isLabel full =>
            have long := le_trans full (Nat.le_add_right place.dotted b)
            exact loopWithin_long hf byte ne isLabel long hlook (.inl full) fuel
        | skip byte ne isLabel long first skips =>
            have hnone := forcedSkipWithin_none skips hf.pos hf.inside
            exact loopWithin_long hf byte ne isLabel long hlook
              (.inr ⟨hf.settled.mpr first, hnone⟩) fuel
      · rw [dnsLabelLoopWithin, look_of_le (not_lt.mp hlook)]
        rfl

/-- There is one way to go on. -/
lemma LabelPlace.Step.unique {next next' : LabelPlace} (h : Step d n size place next)
    (h' : Step d n size place next') : next = next' := by
  cases h with
  | label byte ne isLabel room inside =>
      cases h' with
      | label byte' ne' isLabel' room' inside' => rw [← byte, ← byte']
      | pointer isPointer inside' passes leads low high =>
          rw [byte, isLabel] at isPointer
          cases isPointer
  | pointer isPointer inside passes leads low high =>
      cases h' with
      | label byte ne isLabel room inside' =>
          rw [byte, isLabel] at isPointer
          cases isPointer
      | pointer isPointer' inside' passes' leads' low' high' => rw [← leads, ← leads']

/-- The loop has no result when it comes to a place that is wrong. -/
lemma loopWithin_none {last : LabelPlace} (hreach : ReflTransGen (Step d n size) place last)
    (hw : last.Wrong d n size) (hf : Follows n size decoded place skip)
    (hsize : size ≤ d.msgSize + 1) (fuel : Nat) :
    dnsLabelLoopWithin d n src size fuel decoded place.reader place.pass skip = none := by
  induction hreach using ReflTransGen.head_induction_on generalizing decoded skip fuel with
  | refl => exact loopWithin_wrong hf hw fuel
  | @head place next hstep hreach ih =>
      by_cases hnow : place.Wrong d n size
      · exact loopWithin_wrong hf hnow fuel
      · cases fuel with
        | zero => rfl
        | succ fuel =>
            obtain hends | ⟨decoded', place', skip', hround⟩ := @round_cases d n src size _ _ _ hf hsize hnow
            · exact absurd hstep (hends.last next)
            · rw [hround.within, hround.step.unique hstep]
              have hfollows := hround.follows
              rw [hround.step.unique hstep] at hfollows
              exact ih hfollows fuel

/-- Otherwise it comes to an end, with the result of the loop without checks. -/
lemma loopWithin_some {fuel : Nat} (hf : Follows n size decoded place skip)
    (hsize : size ≤ d.msgSize + 1) (hfuel : place.measure size < fuel)
    (hright : ∀ last, ReflTransGen (Step d n size) place last → ¬last.Wrong d n size) :
    dnsLabelLoopWithin d n src size fuel decoded place.reader place.pass skip =
      some (dnsLabelLoop d n src size fuel decoded place.reader place.pass skip) := by
  induction fuel generalizing decoded place skip with
  | zero => omega
  | succ fuel ih =>
      have hnow := hright place .refl
      obtain hends | ⟨decoded', place', skip', hround⟩ := @round_cases d n src size _ _ _ hf hsize hnow
      · exact hends.within fuel
      · have hmeasure := (hround.step.measure_lt hf.inside).1
        rw [hround.within, hround.plain]
        refine ih hround.follows (by omega) fun last hreach => hright last ?_
        exact .head hround.step hreach

end Rounds

/-- `dns_label_decode` with a name that goes wrong. -/
lemma decodeWithin_none (hpos : 0 < src) (hsize : size ≤ d.msgSize + 1)
    (h : NameStrays d src size) : dnsLabelDecodeWithin d 256 src size = none := by
  rw [dnsLabelDecodeWithin, asserts_of (by decide)]
  obtain hout | ⟨last, hreach, hw⟩ := h
  · rw [asserts_of_not hout.not_gt]
    rfl
  · by_cases hin : src < size
    · rw [asserts_of hin]
      have hf : Follows 256 size [] ⟨0, src, 0⟩ 0 := ⟨rfl, Nat.succ_pos _, hpos, hin, by simp⟩
      exact loopWithin_none hreach hw hf hsize _
    · rw [asserts_of_not hin]
      rfl

/-- `dns_label_decode` with any other name. -/
lemma decodeWithin_some (hpos : 0 < src) (hsize : size ≤ d.msgSize + 1)
    (h : ¬NameStrays d src size) :
    dnsLabelDecodeWithin d 256 src size = some (dnsLabelDecode d 256 src size) := by
  obtain ⟨hin, hright⟩ := not_or.mp h
  have hin' : src < size := not_le.mp hin
  rw [dnsLabelDecodeWithin, asserts_of (by decide), asserts_of hin']
  have hf : Follows 256 size [] ⟨0, src, 0⟩ 0 := ⟨rfl, Nat.succ_pos _, hpos, hin', by simp⟩
  have hfuel : (LabelPlace.mk 0 src 0).measure size < (maximumLoopPasses + 2) * (size + 2) := by
    simp only [LabelPlace.measure, maximumLoopPasses]
    omega
  exact loopWithin_some hf hsize hfuel fun last hreach hw => hright ⟨last, hreach, hw⟩

end Labels

/-! ## The sections of a message -/

section Sections

variable {b : AddressBuild} {d : Datagram}

/-- A name has no more than one end. -/
lemma NameEnds.unique {size src e e' : Nat} (h : NameEnds d size src e)
    (h' : NameEnds d size src e') : e = e' :=
  (bytesToSkip_eq (n := 256) h).1.symm.trans (bytesToSkip_eq h').1

/-- What a caller makes of a name that is decoded without anything going wrong: it has an end, to
    which the bytes to skip lead, or it gives nothing to skip. -/
inductive NameRead (d : Datagram) (src : Nat) (name : LabelDecoded) : Prop
  | ends {e : Nat} (ends : NameEnds d (d.msgSize + 1) src e) (skips : src + name.bytesToSkip = e)
      (behind : src < e) (good : ¬(name.ok = false ∧ name.bytesToSkip = 0))
  | endless (endless : ∀ e, ¬NameEnds d (d.msgSize + 1) src e)
      (bad : name.ok = false ∧ name.bytesToSkip = 0)

lemma nameRead (d : Datagram) (src : Nat) :
    NameRead d src (dnsLabelDecode d 256 src (d.msgSize + 1)) := by
  by_cases h : ∃ e, NameEnds d (d.msgSize + 1) src e
  · obtain ⟨e, hend⟩ := h
    obtain ⟨heq, hlt⟩ := bytesToSkip_eq (n := 256) hend
    exact .ends hend heq hlt fun hbad => by omega
  · exact .endless (fun e hend => h ⟨e, hend⟩) (dnsLabelLoop_of_endless fun e hend => h ⟨e, hend⟩)

/-- A name, with the checks: it goes wrong, or it is decoded as without them. -/
lemma decodeWithin_cases {src : Nat} (hpos : 0 < src) :
    (NameStrays d src (d.msgSize + 1) ∧
      dnsLabelDecodeWithin d 256 src (d.msgSize + 1) = none) ∨
    (¬NameStrays d src (d.msgSize + 1) ∧ ∃ name, dnsLabelDecode d 256 src (d.msgSize + 1) = name ∧
      dnsLabelDecodeWithin d 256 src (d.msgSize + 1) = some name ∧ NameRead d src name) := by
  by_cases h : NameStrays d src (d.msgSize + 1)
  · exact .inl ⟨h, decodeWithin_none hpos le_rfl h⟩
  · exact .inr ⟨h, _, rfl, decodeWithin_some hpos le_rfl h, nameRead d src⟩

/-! ### Questions -/

/-- One of the questions goes wrong, and skipping them has no result. -/
lemma skipQuestionsWithin_none {count reader : Nat} (h : QuestionsStray d count reader)
    (hpos : 0 < reader) : skipQuestionsWithin d count reader = none := by
  induction h with
  | here inside strays =>
      rw [skipQuestionsWithin, if_neg inside.not_gt, decodeWithin_none hpos le_rfl strays]
      rfl
  | @next count reader e inside ends next ih =>
      obtain ⟨-, hnone⟩ | ⟨-, name, -, hsome, hread⟩ := decodeWithin_cases (d := d) hpos
      · rw [skipQuestionsWithin, if_neg inside.not_gt, hnone]
        rfl
      · obtain @⟨e', ends', skips, behind, good⟩ | ⟨endless, -⟩ := hread
        · rw [skipQuestionsWithin, if_neg inside.not_gt, hsome]
          simp only [Option.bind_eq_bind, Option.bind_some]
          rw [if_neg good, skips, ends'.unique ends]
          rw [ends'.unique ends] at behind
          exact ih (Nat.add_pos_left (by omega) _)
        · exact absurd ends (endless e)

/-- Otherwise they are skipped as without the checks, to where they end. -/
lemma skipQuestionsWithin_some (count : Nat) {reader : Nat} (hpos : 0 < reader)
    (h : ¬QuestionsStray d count reader) :
    skipQuestionsWithin d count reader = some (skipQuestions d count reader) ∧
      ∀ last, skipQuestions d count reader = some last ↔ QuestionsEnd d count reader last := by
  induction count generalizing reader with
  | zero =>
      refine ⟨rfl, fun last => ⟨?_, ?_⟩⟩
      · rintro ⟨⟩
        exact .done
      · rintro ⟨⟩
        rfl
  | succ count ih =>
      rw [skipQuestionsWithin, skipQuestions]
      by_cases hroom : d.msgSize < reader + questionDataSize
      · rw [if_pos hroom, if_pos hroom]
        refine ⟨rfl, fun last => ⟨by rintro ⟨⟩, ?_⟩⟩
        rintro ⟨⟩
        omega
      · have inside : reader + questionDataSize ≤ d.msgSize := not_lt.mp hroom
        rw [if_neg hroom, if_neg hroom]
        obtain ⟨hstrays, -⟩ | ⟨-, name, hplain, hsome, hread⟩ := decodeWithin_cases (d := d) hpos
        · exact absurd (.here inside hstrays) h
        · rw [hsome, hplain]
          simp only [Option.bind_eq_bind, Option.bind_some]
          obtain @⟨e, ends, skips, behind, good⟩ | ⟨endless, bad⟩ := hread
          · rw [if_neg good, if_neg good, skips]
            have hpos' : 0 < e + questionDataSize := Nat.add_pos_left (by omega) _
            obtain ⟨hskip, hlast⟩ := ih hpos' fun hnext => h (.next inside ends hnext)
            refine ⟨hskip, fun last => (hlast last).trans ⟨.next inside ends, ?_⟩⟩
            rintro (_ | ⟨-, ends', next⟩)
            rw [ends.unique ends']
            exact next
          · rw [if_pos bad, if_pos bad]
            refine ⟨rfl, fun last => ⟨by rintro ⟨⟩, ?_⟩⟩
            rintro (_ | ⟨-, ends, -⟩)
            exact absurd ends (endless _)

/-! ### Answers -/

/-- Looking at the data of a record that lies in the message. -/
lemma checkAnswerLooks_some {reader type len : Nat} (hfields : resourceDataSize ≤ reader)
    (hdata : reader + len ≤ d.msgSize) : checkAnswerLooks b d reader type len = some () := by
  have hfields' : 10 ≤ reader := hfields
  have httl : reader - 6 + 4 ≤ d.msgSize := by omega
  rw [checkAnswerLooks]
  split
  · rw [looks_of_le hdata, asserts_of hfields, looks_of_le httl]
    rfl
  · rfl

/-- `check_answer` finds an address that can be used. -/
lemma checkAnswer_isAddress {e : Nat} (f : FoundAddresses) :
    (checkAnswer b d (e + resourceDataSize) (d.read16 e) (d.read16 (e + 8)) f).1 = true ↔
      IsAddress b d e := by
  have hne : dnsAaaa ≠ dnsA := by decide
  rw [checkAnswer, IsAddress]
  by_cases hA : d.read16 e = dnsA
  · rw [if_pos hA]
    by_cases hlen : d.read16 (e + 8) = 4
    · simp [hA, hlen]
    · simp [hA, hlen, hne.symm]
  · rw [if_neg hA]
    by_cases hAaaa : b.useIpv6 = true ∧ d.read16 e = dnsAaaa
    · rw [if_pos hAaaa]
      by_cases hlen : d.read16 (e + 8) = 16
      · simp [hAaaa, hlen]
      · simp [hAaaa, hlen, hne]
    · simp only [if_neg hAaaa, Bool.false_eq_true, false_iff]
      rintro (⟨hA', -⟩ | ⟨hsix, hAaaa', -⟩)
      · exact hA hA'
      · exact hAaaa ⟨hsix, hAaaa'⟩

/-- What is done with a record of which the name has an end. -/
lemma findTheAnswer_ends {count reader e : Nat} {f : FoundAddresses} {name : LabelDecoded}
    (hplain : dnsLabelDecode d 256 reader (d.msgSize + 1) = name)
    (skips : reader + name.bytesToSkip = e)
    (good : ¬(name.ok = false ∧ name.bytesToSkip = 0)) :
    findTheAnswer b d (count + 1) reader f =
      if d.msgSize < e + resourceDataSize then (false, f)
      else if d.msgSize < e + resourceDataSize + d.read16 (e + 8) then (false, f)
      else
        let checked := checkAnswer b d (e + resourceDataSize) (d.read16 e) (d.read16 (e + 8)) f
        if checked.1 = true ∧ b.useMultipleAddresses = false then (true, checked.2)
        else findTheAnswer b d count (e + resourceDataSize + d.read16 (e + 8)) checked.2 := by
  have hlen : e + resourceDataSize - 2 = e + 8 := rfl
  have htype : e + resourceDataSize - 10 = e := rfl
  rw [findTheAnswer, hplain]
  simp only
  rw [if_neg good, skips, hlen, htype]

/-- The same with the checks. -/
lemma findTheAnswerWithin_ends {count reader e : Nat} {f : FoundAddresses} {name : LabelDecoded}
    (hsome : dnsLabelDecodeWithin d 256 reader (d.msgSize + 1) = some name)
    (skips : reader + name.bytesToSkip = e)
    (good : ¬(name.ok = false ∧ name.bytesToSkip = 0)) :
    findTheAnswerWithin b d (count + 1) reader f =
      if d.msgSize < e + resourceDataSize then some (false, f)
      else if d.msgSize < e + resourceDataSize + d.read16 (e + 8) then some (false, f)
      else
        let checked := checkAnswer b d (e + resourceDataSize) (d.read16 e) (d.read16 (e + 8)) f
        if checked.1 = true ∧ b.useMultipleAddresses = false then some (true, checked.2)
        else findTheAnswerWithin b d count (e + resourceDataSize + d.read16 (e + 8)) checked.2 := by
  have hlen : e + resourceDataSize - 2 = e + 8 := rfl
  have htype : e + resourceDataSize - 10 = e := rfl
  rw [findTheAnswerWithin, hsome]
  simp only [Option.bind_eq_bind, Option.bind_some]
  rw [if_neg good, skips, hlen, htype]
  split
  · rfl
  · rename_i hfields
    have hfields' : e + 10 ≤ d.msgSize := not_lt.mp hfields
    rw [looks_of_le (by omega), looks_of_le (by omega)]
    simp only [Option.bind_some]
    split
    · rfl
    · rename_i hdata
      rw [checkAnswerLooks_some (Nat.le_add_left _ _) (not_lt.mp hdata), Option.bind_some]
      rfl

/-- One of the answers goes wrong, and looking at them has no result. -/
lemma findTheAnswerWithin_none {count reader : Nat} (h : AnswersStray b d count reader)
    (hpos : 0 < reader) (f : FoundAddresses) : findTheAnswerWithin b d count reader f = none := by
  induction h generalizing f with
  | here strays =>
      rw [findTheAnswerWithin, decodeWithin_none hpos le_rfl strays]
      rfl
  | @next count reader e ends inside goesOn next ih =>
      obtain ⟨-, hnone⟩ | ⟨-, name, -, hsome, hread⟩ := decodeWithin_cases (d := d) hpos
      · rw [findTheAnswerWithin, hnone]
        rfl
      · obtain @⟨e', ends', skips, behind, good⟩ | ⟨endless, -⟩ := hread
        · obtain rfl := ends'.unique ends
          rw [findTheAnswerWithin_ends hsome skips good, if_neg (by omega), if_neg inside.not_gt]
          simp only
          rw [if_neg, ih (by omega)]
          rintro ⟨haddress, hone⟩
          rw [goesOn ((checkAnswer_isAddress f).mp haddress)] at hone
          cases hone
        · exact absurd ends (endless e)

/-- Otherwise they are looked at as without the checks. -/
lemma findTheAnswerWithin_some (count : Nat) {reader : Nat} (hpos : 0 < reader)
    (h : ¬AnswersStray b d count reader) (f : FoundAddresses) :
    findTheAnswerWithin b d count reader f = some (findTheAnswer b d count reader f) := by
  induction count generalizing reader f with
  | zero => rfl
  | succ count ih =>
      obtain ⟨hstrays, -⟩ | ⟨-, name, hplain, hsome, hread⟩ := decodeWithin_cases (d := d) hpos
      · exact absurd (.here hstrays) h
      · obtain @⟨e, ends, skips, behind, good⟩ | ⟨endless, bad⟩ := hread
        · rw [findTheAnswerWithin_ends hsome skips good, findTheAnswer_ends hplain skips good]
          split
          · rfl
          · split
            · rfl
            · rename_i hinside
              simp only
              split
              · rfl
              · rename_i hgoes
                refine ih (by omega) (fun hnext => h (.next ends (not_lt.mp hinside) ?_ hnext)) _
                intro haddress
                by_contra hone
                exact hgoes ⟨(checkAnswer_isAddress f).mpr haddress, by simpa using hone⟩
        · rw [findTheAnswerWithin, findTheAnswer, hsome, hplain]
          simp only [Option.bind_eq_bind, Option.bind_some]
          rw [if_pos bad, if_pos bad]
          rfl

/-! ### The whole message -/

lemma readHeaderWithin_eq (d : Datagram) : readHeaderWithin d = some (readHeader d) := by
  rw [readHeaderWithin]
  split
  · rename_i hsize
    rw [readHeader, if_pos hsize]
    rfl
  · rename_i hsize
    have hsize' : 12 ≤ d.msgSize := not_lt.mp hsize
    rw [looks_of_le (by omega)]
    rfl

lemma readHeader_of_accepted (h : HeaderAccepted d) :
    readHeader d = some (d.read16 4, d.read16 6) := by
  obtain ⟨hsize, hresponse, herror⟩ := h
  rw [readHeader, if_neg hsize.not_gt]
  simp only
  rw [if_neg hresponse, if_neg (not_not.mpr herror)]

lemma readHeader_of_refused (h : ¬HeaderAccepted d) : readHeader d = none := by
  rw [readHeader]
  split
  · rfl
  · rename_i hsize
    simp only
    split
    · rfl
    · rename_i hresponse
      split
      · rfl
      · rename_i herror
        exact absurd ⟨not_lt.mp hsize, hresponse, not_not.mp herror⟩ h

lemma questionTypeWithin_none {count : Nat} (hcount : count ≠ 0)
    (h : NameStrays d dnsHeaderSize d.msgSize) : questionTypeWithin d count = none := by
  rw [questionTypeWithin, if_neg hcount, decodeWithin_none (by decide) (Nat.le_succ _) h]
  rfl

lemma questionTypeWithin_some {count : Nat} (h : ¬(count ≠ 0 ∧ NameStrays d dnsHeaderSize d.msgSize)) :
    questionTypeWithin d count = some (questionType d count) := by
  rw [questionTypeWithin, questionType]
  split
  · rfl
  · rename_i hcount
    rw [decodeWithin_some (by decide) (Nat.le_succ _) fun hstrays => h ⟨hcount, hstrays⟩]
    simp only [Option.bind_eq_bind, Option.bind_some]
    split
    · rename_i hroom
      rw [looks_of_le hroom.2]
      rfl
    · rfl

/-- Looking at the answers, from where the questions end. -/
lemma answersWithin_none {reader : Nat} (hpos : 0 < reader) (h : AnswersGoWrong b d reader)
    (f : FoundAddresses) (next : Bool × FoundAddresses → Option Picked) :
    ((asserts (reader < d.msgSize)).bind fun _ =>
      (findTheAnswerWithin b d (d.read16 6) reader f).bind next) = none := by
  obtain hlast | ⟨hlt, hstray⟩ := h
  · rw [asserts_of_not (by omega)]
    rfl
  · rw [asserts_of hlt, findTheAnswerWithin_none hstray hpos]
    rfl

lemma answersWithin_some {reader : Nat} (hpos : 0 < reader) (hinside : reader ≤ d.msgSize)
    (h : ¬AnswersGoWrong b d reader) (f : FoundAddresses)
    (next : Bool × FoundAddresses → Option Picked) :
    ((asserts (reader < d.msgSize)).bind fun _ =>
      (findTheAnswerWithin b d (d.read16 6) reader f).bind next) =
      next (findTheAnswer b d (d.read16 6) reader f) := by
  obtain ⟨hlast, hstray⟩ := not_or.mp h
  have hlt : reader < d.msgSize := by omega
  rw [asserts_of hlt, findTheAnswerWithin_some _ hpos fun hs => hstray ⟨hlt, hs⟩]
  rfl

/-- Questions end behind where they begin. -/
lemma QuestionsEnd.le {count reader last : Nat} (h : QuestionsEnd d count reader last) :
    reader ≤ last := by
  induction h with
  | done => exact le_rfl
  | next inside ends next ih =>
      have hlt := (bytesToSkip_eq (n := 256) ends).2
      omega

/-- There is one place where the questions end. -/
lemma QuestionsEnd.unique {count reader last last' : Nat} (h : QuestionsEnd d count reader last)
    (h' : QuestionsEnd d count reader last') : last = last' := by
  induction h with
  | done =>
      cases h'
      rfl
  | next inside ends next ih =>
      obtain _ | ⟨-, ends', next'⟩ := h'
      rw [ends'.unique ends] at next'
      exact ih next'

/-- Where the name of the first question and the questions are as they should be, a message goes
    wrong at its answers only. -/
lemma goesWrong_iff {reader : Nat} (haccepted : HeaderAccepted d)
    (hname : ¬(d.read16 4 ≠ 0 ∧ NameStrays d dnsHeaderSize d.msgSize)) (hanswers : d.read16 6 ≠ 0)
    (hquestions : ¬QuestionsStray d (d.read16 4) dnsHeaderSize)
    (hend : QuestionsEnd d (d.read16 4) dnsHeaderSize reader) :
    GoesWrong b d ↔ AnswersGoWrong b d reader := by
  constructor
  · rintro ⟨-, hwrong | ⟨-, hstray | ⟨reader', hend', hwrong⟩⟩⟩
    · exact absurd hwrong hname
    · exact absurd hstray hquestions
    · rw [hend.unique hend']
      exact hwrong
  · intro hwrong
    exact ⟨haccepted, .inr ⟨hanswers, .inr ⟨reader, hend, hwrong⟩⟩⟩

end Sections

/-- For every message, and whatever is in the receive buffer behind it: unless it goes wrong at one
    of the places named by `GoesWrong`, the decoder comes to an end, looks at no byte behind the
    message, writes none behind the buffer for the name and fails no assertion, and where it does go
    wrong one of these happens. -/
theorem message_inspected_within_iff (b : AddressBuild) (d : Datagram) (spare : MultiAddresses) :
    pbdnsPickResolvedAddressesWithin b d spare = some (pbdnsPickResolvedAddresses b d spare) ↔
      ¬GoesWrong b d := by
  rw [pbdnsPickResolvedAddressesWithin, pbdnsPickResolvedAddresses, readHeaderWithin_eq]
  simp only [Option.bind_eq_bind, Option.bind_some]
  by_cases haccepted : HeaderAccepted d
  · have hsize : 0 < d.msgSize := lt_of_lt_of_le (by decide) haccepted.1
    rw [readHeader_of_accepted haccepted]
    simp only
    by_cases hname : d.read16 4 ≠ 0 ∧ NameStrays d dnsHeaderSize d.msgSize
    · rw [questionTypeWithin_none hname.1 hname.2]
      simp only [Option.bind_none, reduceCtorEq, false_iff, not_not]
      exact ⟨haccepted, .inl hname⟩
    · rw [questionTypeWithin_some hname]
      simp only [Option.bind_some]
      by_cases hanswers : d.read16 6 = 0
      · rw [if_pos hanswers, if_pos hanswers]
        refine iff_of_true rfl ?_
        rintro ⟨-, hwrong | ⟨hne, -⟩⟩
        · exact hname hwrong
        · exact hne hanswers
      · rw [if_neg hanswers, if_neg hanswers, asserts_of hsize]
        simp only [Option.bind_some]
        by_cases hquestions : QuestionsStray d (d.read16 4) dnsHeaderSize
        · rw [skipQuestionsWithin_none hquestions (by decide)]
          simp only [Option.bind_none, reduceCtorEq, false_iff, not_not]
          exact ⟨haccepted, .inr ⟨hanswers, .inl hquestions⟩⟩
        · obtain ⟨hskip, hlast⟩ := skipQuestionsWithin_some _ (by decide) hquestions
          rw [hskip]
          simp only [Option.bind_some]
          cases hreader : skipQuestions d (d.read16 4) dnsHeaderSize with
          | none =>
              refine iff_of_true rfl ?_
              rintro ⟨-, hwrong | ⟨-, hstray | ⟨reader, hend, -⟩⟩⟩
              · exact hname hwrong
              · exact hquestions hstray
              · rw [(hlast reader).mpr hend] at hreader
                cases hreader
          | some reader =>
              have hend := (hlast reader).mp hreader
              rw [goesWrong_iff haccepted hname hanswers hquestions hend]
              simp only
              by_cases hbehind : d.msgSize < reader
              · rw [if_pos hbehind, if_pos hbehind]
                refine iff_of_true rfl ?_
                rintro (hlast | ⟨hlt, -⟩)
                · omega
                · omega
              · have hpos : 0 < reader := lt_of_lt_of_le (by decide) hend.le
                rw [if_neg hbehind, if_neg hbehind, asserts_of hpos, Option.bind_some]
                by_cases hwrong : AnswersGoWrong b d reader
                · rw [answersWithin_none hpos hwrong]
                  exact iff_of_false (by rintro ⟨⟩) (not_not.mpr hwrong)
                · rw [answersWithin_some hpos (not_lt.mp hbehind) hwrong]
                  exact iff_of_true rfl hwrong
  · rw [readHeader_of_refused haccepted]
    exact iff_of_true rfl fun hwrong => haccepted hwrong.1

/-- The header of a response that announces a question and has nothing behind it. -/
def headerAlone : Datagram := ⟨[0, 0, 0x80, 0, 0, 1, 0, 0, 0, 0, 0, 0], []⟩

/-- Its question is decoded from a place that is not in the buffer, which an assertion forbids. -/
theorem message_not_always_inspected_within :
    ¬∀ (b : AddressBuild) (d : Datagram) (spare : MultiAddresses),
      pbdnsPickResolvedAddressesWithin b d spare = some (pbdnsPickResolvedAddresses b d spare) := by
  intro h
  have hnone : pbdnsPickResolvedAddressesWithin ⟨false, false, 0, 0⟩ headerAlone ⟨0, [], 0, [], 0⟩ =
      none := by decide
  have hsome := h ⟨false, false, 0, 0⟩ headerAlone ⟨0, [], 0, [], 0⟩
  rw [hnone] at hsome
  cases hsome

end PubNub
