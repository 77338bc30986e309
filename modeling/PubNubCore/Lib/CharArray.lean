import Mathlib.Data.List.TakeWhile

/-!
# Strings in arrays of a fixed size

An array of `n` bytes, the last of which may not be read or written past.  A string in it is what
stands before its first zero; an array without a zero has none, and looking for it reads past the
end.  `write` copies bytes to a place in the array, and `setString` copies a string to its beginning
and then writes the zero behind it.
-/

namespace PubNub

/-- An array of `n` bytes. -/
structure CharArray (n : Nat) where
  bytes : List UInt8
  length_bytes : bytes.length = n
  deriving DecidableEq

namespace CharArray

variable {n : Nat} (a : CharArray n) (i : Nat) (s : List UInt8)

/-- The array holds a string. -/
def Terminated : Prop := 0 ∈ a.bytes

instance : Decidable a.Terminated := inferInstanceAs (Decidable (0 ∈ a.bytes))

/-- The string in the array, `none` if there is no end to it. -/
def string : Option (List UInt8) :=
  if a.Terminated then some (a.bytes.takeWhile (· != 0)) else none

/-- Copies bytes to a place, `none` if they do not fit into the array. -/
def write : Option (CharArray n) :=
  if h : i + s.length ≤ n then
    some ⟨a.bytes.take i ++ s ++ a.bytes.drop (i + s.length), by
      have hlength := a.length_bytes
      simp only [List.length_append, List.length_take, List.length_drop]
      omega⟩
  else none

/-- Copies a string to the beginning, then writes the zero behind it. -/
def setString : Option (CharArray n) := (a.write 0 s).bind fun b => b.write s.length [0]

/-- Moves bytes of the array to another place in it; the places may overlap. -/
def memmove (dest src length : Nat) : Option (CharArray n) :=
  if src + length ≤ n then a.write dest ((a.bytes.drop src).take length) else none

/-- An array of zeros. -/
def blank (n : Nat) : CharArray n := ⟨List.replicate n 0, List.length_replicate⟩

variable {a i s} {b : CharArray n}

lemma string_eq (h : a.Terminated) : a.string = some (a.bytes.takeWhile (· != 0)) := by
  rw [string, if_pos h]

lemma isSome_string : a.string.isSome = true ↔ a.Terminated := by
  rw [string]
  split <;> simp [*]

/-- The string is shorter than the array. -/
lemma length_string (h : a.string = some s) : s.length < n := by
  rw [string] at h
  split at h
  · rename_i hzero
    cases h
    have hsplit : a.bytes.takeWhile (· != 0) ++ a.bytes.dropWhile (· != 0) = a.bytes :=
      List.takeWhile_append_dropWhile
    have hrest : a.bytes.dropWhile (· != 0) ≠ [] := by
      intro hnil
      have hall := List.dropWhile_eq_nil_iff.mp hnil 0 hzero
      simp at hall
    have hlength := congrArg List.length hsplit
    rw [List.length_append, a.length_bytes] at hlength
    have hpos := List.length_pos_iff.mpr hrest
    omega
  · cases h

lemma isSome_write : (a.write i s).isSome = true ↔ i + s.length ≤ n := by
  rw [write]
  split <;> simp [*]

lemma bytes_write (h : a.write i s = some b) :
    b.bytes = a.bytes.take i ++ s ++ a.bytes.drop (i + s.length) := by
  rw [write] at h
  split at h
  · cases h
    rfl
  · cases h

/-- Bytes that are copied take the place of as many others. -/
lemma exists_write {u t : List UInt8} (ha : a.bytes = u ++ t) (hs : s.length ≤ t.length) :
    ∃ b, a.write u.length s = some b ∧ b.bytes = u ++ s ++ t.drop s.length := by
  have hlength := a.length_bytes
  rw [ha, List.length_append] at hlength
  obtain ⟨b, hb⟩ := Option.isSome_iff_exists.mp
    ((isSome_write (a := a) (i := u.length) (s := s)).mpr (by omega))
  refine ⟨b, hb, ?_⟩
  rw [bytes_write hb, ha, List.take_left, ← List.drop_drop, List.drop_left]

/-- Bytes that are moved to the front leave as many bytes behind them as lay in front of them. -/
lemma exists_memmove {u g r t : List UInt8} (ha : a.bytes = u ++ g ++ r ++ t) :
    ∃ b, a.memmove u.length (u.length + g.length) r.length = some b ∧
      ∃ g', g'.length = g.length ∧ b.bytes = u ++ r ++ g' ++ t := by
  have hlength := a.length_bytes
  rw [ha, List.length_append, List.length_append, List.length_append] at hlength
  have hsource : (a.bytes.drop (u.length + g.length)).take r.length = r := by
    rw [ha, ← List.length_append, List.append_assoc, List.drop_left, List.take_left]
  have hrest : r.length ≤ (g ++ r ++ t).length := by
    rw [List.length_append, List.length_append]
    omega
  obtain ⟨b, hb, hbytes⟩ := exists_write (a := a) (u := u) (t := g ++ r ++ t)
    (by rw [ha]; simp only [List.append_assoc]) hrest
  refine ⟨b, ?_, (g ++ r).drop r.length, ?_, ?_⟩
  · rw [memmove, if_pos (by omega), hsource, hb]
  · rw [List.length_drop, List.length_append, Nat.add_sub_cancel]
  · rw [hbytes, List.drop_append_of_le_length (by rw [List.length_append]; omega)]
    simp only [List.append_assoc]

/-- A zero that is copied ends the string. -/
lemma terminated_write (h : a.write i s = some b) (hs : 0 ∈ s) : b.Terminated := by
  rw [Terminated, bytes_write h]
  simp [hs]

lemma isSome_setString : (a.setString s).isSome = true ↔ s.length < n := by
  rw [setString, Option.isSome_bind]
  cases h : a.write 0 s with
  | none =>
      have hlong : ¬ 0 + s.length ≤ n := fun hle => by
        rw [← isSome_write (a := a), h] at hle
        cases hle
      simp only [Option.any_none, Bool.false_eq_true, false_iff]
      omega
  | some c =>
      rw [Option.any_some, isSome_write, List.length_singleton]
      exact Iff.rfl

/-- A string that has been set is ended. -/
lemma terminated_setString (h : a.setString s = some b) : b.Terminated := by
  obtain ⟨c, -, hwrite⟩ := Option.bind_eq_some_iff.mp h
  exact terminated_write hwrite (List.mem_singleton_self 0)

/-- A string that is short enough can be set. -/
lemma exists_setString (a : CharArray n) (h : s.length < n) :
    ∃ b, a.setString s = some b ∧ b.Terminated := by
  obtain ⟨b, hb⟩ := Option.isSome_iff_exists.mp (isSome_setString (a := a).mpr h)
  exact ⟨b, hb, terminated_setString hb⟩

end CharArray

end PubNub
