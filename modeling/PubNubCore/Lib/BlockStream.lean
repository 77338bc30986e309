import Mathlib.Data.List.Basic

/-!
# Input in blocks

A function that takes its input in blocks of `n` elements, with a state from block to block, and an
implementation that is given the input in pieces: it takes in the blocks that are whole and holds back
the rest.  However the input is cut into pieces, the state is the one after the whole blocks of the
input, and what is held back is what is behind them (`Streams.append`).
-/

namespace PubNub

universe u v

section Blocks

variable {α : Type u} {σ : Type v} (n : Nat) (absorb : σ → List α → σ)

/-- The state after so many blocks. -/
def absorbBlocks : Nat → σ → List α → σ
  | 0, s, _ => s
  | k + 1, s, data => absorbBlocks k (absorb s (data.take n)) (data.drop n)

/-- The state after the whole blocks. -/
def absorbAll (s : σ) (data : List α) : σ := absorbBlocks n absorb (data.length / n) s data

/-- What is behind the whole blocks. -/
def heldBack (data : List α) : List α := data.drop (data.length / n * n)

/-- A state and what is held back, after the input. -/
structure Streams (init : σ) (data : List α) (s : σ) (held : List α) : Prop where
  state : s = absorbAll n absorb init data
  held : held = heldBack n data

variable {n absorb} {init s : σ} {data more held : List α}

lemma absorbBlocks_append {k : Nat} (h : k * n ≤ data.length) :
    absorbBlocks n absorb k s (data ++ more) = absorbBlocks n absorb k s data := by
  induction k generalizing s data with
  | zero => rfl
  | succ k ih =>
      rw [Nat.succ_mul] at h
      rw [absorbBlocks, absorbBlocks, List.take_append_of_le_length (by omega),
        List.drop_append_of_le_length (by omega), ih]
      rw [List.length_drop]
      omega

lemma absorbBlocks_add (k l : Nat) (s : σ) (data : List α) : absorbBlocks n absorb (k + l) s data =
    absorbBlocks n absorb l (absorbBlocks n absorb k s data) (data.drop (k * n)) := by
  induction k generalizing s data with
  | zero => rw [Nat.zero_add, Nat.zero_mul, List.drop_zero, absorbBlocks]
  | succ k ih =>
      rw [Nat.add_right_comm, absorbBlocks, absorbBlocks, ih, List.drop_drop, Nat.succ_mul,
        Nat.add_comm n]

lemma length_heldBack (data : List α) : (heldBack n data).length = data.length % n := by
  rw [heldBack, List.length_drop, Nat.mul_comm]
  have hsplit := Nat.div_add_mod data.length n
  omega

lemma whole_le (n : Nat) (data : List α) : data.length / n * n ≤ data.length :=
  Nat.div_mul_le_self _ _

/-- The blocks of what is held back with more behind it are the blocks that come next. -/
lemma absorbAll_append (hn : 0 < n) : absorbAll n absorb s (data ++ more) =
    absorbAll n absorb (absorbAll n absorb s data) (heldBack n data ++ more) := by
  have hlength : (data ++ more).length / n =
      data.length / n + (heldBack n data ++ more).length / n := by
    have hsplit := Nat.div_add_mod data.length n
    have hwhole : (data ++ more).length =
        (heldBack n data ++ more).length + n * (data.length / n) := by
      rw [List.length_append, List.length_append, length_heldBack]
      omega
    rw [hwhole, Nat.add_mul_div_left _ _ hn, Nat.add_comm]
  rw [absorbAll, hlength, absorbBlocks_add, absorbBlocks_append (whole_le n data),
    List.drop_append_of_le_length (whole_le n data)]
  rfl

lemma heldBack_append (hn : 0 < n) :
    heldBack n (data ++ more) = heldBack n (heldBack n data ++ more) := by
  have hsplit := Nat.div_add_mod data.length n
  have hwhole : (data ++ more).length =
      (heldBack n data ++ more).length + n * (data.length / n) := by
    rw [List.length_append, List.length_append, length_heldBack]
    omega
  rw [heldBack, hwhole, Nat.add_mul_div_left _ _ hn, Nat.add_mul, Nat.add_comm, ← List.drop_drop,
    List.drop_append_of_le_length (whole_le n data)]
  rfl

/-- Less than a block is held back as it is. -/
lemma heldBack_of_lt (h : data.length < n) : heldBack n data = data := by
  rw [heldBack, Nat.div_eq_of_lt h, Nat.zero_mul, List.drop_zero]

lemma absorbAll_of_lt (h : data.length < n) : absorbAll n absorb s data = s := by
  rw [absorbAll, Nat.div_eq_of_lt h, absorbBlocks]

/-- One block. -/
lemma absorbAll_of_eq (hn : 0 < n) (h : data.length = n) :
    absorbAll n absorb s data = absorb s data := by
  rw [absorbAll, h, Nat.div_self hn, absorbBlocks, absorbBlocks, List.take_of_length_le (Nat.le_of_eq h)]

lemma heldBack_of_eq (hn : 0 < n) (h : data.length = n) : heldBack n data = [] := by
  rw [heldBack, h, Nat.div_self hn, Nat.one_mul, ← h, List.drop_length]

lemma absorbAll_block (hn : 0 < n) (h : data.length = n) :
    absorbAll n absorb s (data ++ more) = absorbAll n absorb (absorb s data) more := by
  rw [absorbAll_append hn, heldBack_of_eq hn h, absorbAll_of_eq hn h, List.nil_append]

lemma heldBack_block (hn : 0 < n) (h : data.length = n) :
    heldBack n (data ++ more) = heldBack n more := by
  rw [heldBack_append hn, heldBack_of_eq hn h, List.nil_append]

/-- What is behind the whole blocks does not matter. -/
lemma absorbAll_take : absorbAll n absorb s (data.take (data.length / n * n)) =
    absorbAll n absorb s data := by
  rcases Nat.eq_zero_or_pos n with rfl | hn
  · rw [absorbAll, absorbAll, Nat.div_zero, Nat.div_zero, absorbBlocks, absorbBlocks]
  · have hlength : (data.take (data.length / n * n)).length = data.length / n * n := by
      rw [List.length_take, Nat.min_eq_left (whole_le n data)]
    calc absorbAll n absorb s (data.take (data.length / n * n))
        = absorbBlocks n absorb (data.length / n) s (data.take (data.length / n * n)) := by
          rw [absorbAll, hlength, Nat.mul_div_cancel _ hn]
      _ = absorbBlocks n absorb (data.length / n) s
            (data.take (data.length / n * n) ++ data.drop (data.length / n * n)) :=
          (absorbBlocks_append (Nat.le_of_eq hlength.symm)).symm
      _ = absorbAll n absorb s data := by rw [List.take_append_drop, absorbAll]

lemma streams_nil (init : σ) : Streams n absorb init [] init [] :=
  ⟨by rw [absorbAll, List.length_nil, Nat.zero_div, absorbBlocks], (List.drop_nil).symm⟩

/-- **A piece more.**  The blocks of what is held back and the piece come next. -/
lemma Streams.append (hn : 0 < n) (h : Streams n absorb init data s held) (more : List α) :
    Streams n absorb init (data ++ more) (absorbAll n absorb s (held ++ more))
      (heldBack n (held ++ more)) := by
  obtain ⟨rfl, rfl⟩ := h
  exact ⟨(absorbAll_append hn).symm, (heldBack_append hn).symm⟩

end Blocks

end PubNub
