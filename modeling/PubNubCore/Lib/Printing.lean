import PubNubCore.Lib.CharArray

/-!
# Printing into arrays

`snprintf` is given a place in an array and a number of bytes, writes what fits of the text and a
zero, and says nothing about the array: where the number is wrong it writes past the end.
-/

namespace PubNub

/-- What a `char const*` points to: bytes none of which is a zero. -/
structure CText where
  text : List UInt8
  zero_not_mem : 0 ∉ text

namespace CharArray

variable {n : Nat}

/-- Prints a text to a place, for which there are said to be `size` bytes. -/
def snprintf (a : CharArray n) (i size : Nat) (s : List UInt8) : Option (CharArray n) :=
  if size = 0 then some a else a.write i (s.take (size - 1) ++ [0])

variable {a b : CharArray n} {i size : Nat} {s u t : List UInt8}

/-- A text that is shorter than the size is printed whole. -/
lemma snprintf_of_lt (h : s.length < size) : a.snprintf i size s = a.write i (s ++ [0]) := by
  rw [snprintf, if_neg (Nat.ne_of_gt (Nat.zero_lt_of_lt h)), List.take_of_length_le (by omega)]

/-- A text for which there is room stands in front of its zero. -/
lemma exists_snprintf (ha : a.bytes = u ++ t) (hsize : s.length < size)
    (hroom : s.length < t.length) :
    ∃ b, a.snprintf u.length size s = some b ∧ ∃ rest, b.bytes = u ++ s ++ 0 :: rest := by
  have hle : (s ++ [0]).length ≤ t.length := by
    rw [List.length_append, List.length_singleton]
    omega
  obtain ⟨b, hb, hbytes⟩ := exists_write ha hle
  refine ⟨b, ?_, t.drop (s ++ [0]).length, ?_⟩
  · rw [snprintf_of_lt hsize, hb]
  · rw [hbytes]
    simp only [List.append_assoc, List.singleton_append]

/-- What is printed behind a text, with the room that there is for it, is cut off in front of the last
    byte of the array. -/
lemma exists_snprintf_cut (ha : a.bytes = u ++ t)
    (ht : t ≠ []) : ∃ b, a.snprintf u.length (n - u.length) s = some b ∧
      ∃ rest, b.bytes = (u ++ s).take (n - 1) ++ 0 :: rest := by
  have hlength := a.length_bytes
  have hpos := List.length_pos_iff.mpr ht
  rw [ha, List.length_append] at hlength
  have hle : (s.take (n - u.length - 1) ++ [0]).length ≤ t.length := by
    rw [List.length_append, List.length_take, List.length_singleton]
    omega
  obtain ⟨b, hb, hbytes⟩ := exists_write ha hle
  refine ⟨b, ?_, t.drop (s.take (n - u.length - 1) ++ [0]).length, ?_⟩
  · rw [snprintf, if_neg (by omega), hb]
  · have hcut : (u ++ s).take (n - 1) = u ++ s.take (n - u.length - 1) := by
      rw [List.take_append, List.take_of_length_le (by omega), Nat.sub_right_comm]
    rw [hbytes, hcut]
    simp only [List.append_assoc, List.singleton_append]

/-- The string in front of the first zero. -/
lemma string_of_bytes (ha : a.bytes = u ++ 0 :: t) (hu : 0 ∉ u) : a.string = some u := by
  have hterminated : a.Terminated := by
    rw [Terminated, ha]
    exact List.mem_append_right u List.mem_cons_self
  have hpass : ∀ c ∈ u, (c != 0) = true := by
    intro c hc
    rw [bne_iff_ne]
    rintro rfl
    exact hu hc
  rw [string_eq hterminated, ha, List.takeWhile_append_of_pos hpass,
    List.takeWhile_cons_of_neg (by decide), List.append_nil]

/-- A text that fits is the string that is stored. -/
lemma exists_snprintf_zero (a : CharArray n) (hlt : s.length < n) (hs : 0 ∉ s) :
    ∃ b, a.snprintf 0 n s = some b ∧ b.string = some s := by
  obtain ⟨b, hb, rest, hbytes⟩ := exists_snprintf (u := []) (List.nil_append a.bytes).symm hlt
    (hlt.trans_eq a.length_bytes.symm)
  exact ⟨b, hb, string_of_bytes hbytes hs⟩

end CharArray

end PubNub
