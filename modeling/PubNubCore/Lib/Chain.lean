import Mathlib.Data.List.Nodup

/-!
# Intrusive lists

An intrusive list has no cells of its own: the pointer to the next element lies in the element, and
is one function `next` for all the lists there are.  `Chain next p l` says that the list which
begins at `p` ends, and has the elements `l`.  A list can be followed (`follow`) and searched
(`locate`) only that far; what is given up after as many elements as there are in all never ends.
-/

namespace PubNub

universe u

variable {α : Type u} {next next' : α → Option α} {p : Option α} {l l₁ l₂ : List α} {a : α} {n : Nat}

/-- The list that begins at `p` has the elements `l`. -/
def Chain (next : α → Option α) : Option α → List α → Prop
  | p, [] => p = none
  | p, a :: l => p = some a ∧ Chain next (next a) l

/-- The elements of a list, if it ends after fewer than `n` of them. -/
def follow (next : α → Option α) : Nat → Option α → Option (List α)
  | 0, _ => none
  | _ + 1, none => some []
  | n + 1, some a => (follow next n (next a)).map (a :: ·)

/-- Where an element is in a list. -/
inductive Place (α : Type u)
  | absent
  | first
  | after (previous : α)
  deriving DecidableEq, Repr

/-- Searches a list for an element; `place` is where the element at `p` is. -/
def locate [DecidableEq α] (next : α → Option α) (a : α) :
    Nat → Place α → Option α → Option (Place α)
  | 0, _, _ => none
  | _ + 1, _, none => some .absent
  | n + 1, place, some b => if b = a then some place else locate next a n (.after b) (next b)

namespace Chain

lemma nil : Chain next none [] := rfl

/-- A list has one sequence of elements only. -/
lemma unique : ∀ {p : Option α} {l l' : List α}, Chain next p l → Chain next p l' → l = l'
  | _, [], [], _, _ => rfl
  | none, [], _ :: _, _, h' => by cases h'.1
  | none, _ :: _, [], h, _ => by cases h.1
  | _, a :: l, b :: l', h, h' => by
      obtain ⟨rfl, h⟩ := h
      obtain ⟨hab, h'⟩ := h'
      cases hab
      rw [unique h h']

/-- What follows an element in a list is the list that begins there. -/
lemma drop_append (h : Chain next p (l₁ ++ a :: l₂)) : Chain next (some a) (a :: l₂) := by
  induction l₁ generalizing p with
  | nil =>
      obtain ⟨-, h⟩ := h
      exact ⟨rfl, h⟩
  | cons b l₁ ih => exact ih h.2

lemma behind (h : Chain next p (l₁ ++ a :: l₂)) : Chain next (next a) l₂ := h.drop_append.2

/-- A list that ends has no element twice. -/
lemma nodup (h : Chain next p l) : l.Nodup := by
  induction l generalizing p with
  | nil => exact List.nodup_nil
  | cons a l ih =>
      refine List.nodup_cons.mpr ⟨fun ha => ?_, ih h.2⟩
      obtain ⟨l₁, l₂, rfl⟩ := List.append_of_mem ha
      -- the list that begins at the element would be longer than itself
      have hsame := unique (behind h.2) h.2
      have hlength := congrArg List.length hsame
      simp only [List.length_append, List.length_cons] at hlength
      omega

/-- A list depends on the pointers of its own elements. -/
lemma congr (h : Chain next p l) (hn : ∀ a ∈ l, next' a = next a) : Chain next' p l := by
  induction l generalizing p with
  | nil => exact h
  | cons a l ih =>
      refine ⟨h.1, ?_⟩
      rw [hn a List.mem_cons_self]
      exact ih h.2 fun b hb => hn b (List.mem_cons_of_mem a hb)

/-- A list goes on behind its first part. -/
lemma append (h : Chain next p (l₁ ++ a :: l₂)) (hn : ∀ b ∈ l₁, next' b = next b) {l₃ : List α}
    (ha : Chain next' (some a) l₃) : Chain next' p (l₁ ++ l₃) := by
  induction l₁ generalizing p with
  | nil =>
      obtain ⟨rfl, -⟩ := h
      exact ha
  | cons b l₁ ih =>
      refine ⟨h.1, ?_⟩
      rw [hn b List.mem_cons_self]
      exact ih h.2 fun c hc => hn c (List.mem_cons_of_mem b hc)

lemma follow_eq (h : Chain next p l) (hl : l.length < n) : follow next n p = some l := by
  induction l generalizing p n with
  | nil =>
      cases h
      obtain ⟨n, rfl⟩ := Nat.exists_eq_succ_of_ne_zero (Nat.ne_zero_of_lt hl)
      rfl
  | cons a l ih =>
      obtain ⟨rfl, h⟩ := h
      obtain ⟨n, rfl⟩ := Nat.exists_eq_succ_of_ne_zero (Nat.ne_zero_of_lt hl)
      rw [follow, ih h (Nat.lt_of_succ_lt_succ hl)]
      rfl

variable [DecidableEq α]

lemma locate_absent (h : Chain next p l) (hl : l.length < n) (ha : a ∉ l) (place : Place α) :
    locate next a n place p = some .absent := by
  induction l generalizing p n place with
  | nil =>
      cases h
      obtain ⟨n, rfl⟩ := Nat.exists_eq_succ_of_ne_zero (Nat.ne_zero_of_lt hl)
      rfl
  | cons b l ih =>
      obtain ⟨rfl, h⟩ := h
      obtain ⟨n, rfl⟩ := Nat.exists_eq_succ_of_ne_zero (Nat.ne_zero_of_lt hl)
      have hba : b ≠ a := fun hba => ha (hba ▸ List.mem_cons_self)
      rw [locate, if_neg hba]
      exact ih h (Nat.lt_of_succ_lt_succ hl) (fun hm => ha (List.mem_cons_of_mem b hm)) _

/-- The element is found behind the one in front of it. -/
lemma locate_present (h : Chain next p (l₁ ++ a :: l₂)) (hl : l₁.length < n) (ha : a ∉ l₁)
    (place : Place α) : locate next a n place p = some (l₁.getLast?.elim place .after) := by
  induction l₁ generalizing p n place with
  | nil =>
      obtain ⟨rfl, -⟩ := h
      obtain ⟨n, rfl⟩ := Nat.exists_eq_succ_of_ne_zero (Nat.ne_zero_of_lt hl)
      rw [locate, if_pos rfl]
      rfl
  | cons b l₁ ih =>
      obtain ⟨rfl, h⟩ := h
      obtain ⟨n, rfl⟩ := Nat.exists_eq_succ_of_ne_zero (Nat.ne_zero_of_lt hl)
      have hba : b ≠ a := fun hba => ha (hba ▸ List.mem_cons_self)
      rw [locate, if_neg hba,
        ih h (Nat.lt_of_succ_lt_succ hl) (fun hm => ha (List.mem_cons_of_mem b hm))]
      cases l₁ with
      | nil => rfl
      | cons c l₁ =>
          rw [List.getLast?_cons_cons]
          simp [List.getLast?_cons]

end Chain

end PubNub
