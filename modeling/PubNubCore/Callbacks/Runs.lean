import Mathlib.Data.List.Nodup
import PubNubCore.Lib.Machine
import PubNubCore.Callbacks.CallbackQueue

/-!
# Every context is processed

What the queue is for is said with `Tickets`: an accepted context gets a number and is pending, a
context that is removed is pending no more, and the one that has been pending for the longest time
is processed next.  `QueueSystem` has the ring and the thread that processes it next to the tickets.

In every run in which a context that is removed is in the queue at most once, and has not been taken
out of it to be processed, the ring does what the tickets say (`callbackQueue_right`).  Without this
a context may be processed that has been removed: `pbpal_ntf_callback_remove_from_queue` stops at the
first pointer that it finds (`callbackQueue_not_always_right`).
-/

namespace PubNub

universe u

variable {C : Type u} [DecidableEq C]

/-! ## Tickets -/

/-- The contexts that are pending, that have been processed and that have been removed, with their
    numbers; how many numbers there are; and which contexts have been removed and not been accepted
    since then. -/
structure Tickets (C : Type u) where
  pending : List (Nat × C) := []
  served : List (Nat × C) := []
  removed : List (Nat × C) := []
  issued : Nat := 0
  withdrawn : C → Bool := fun _ => false

namespace Tickets

/-- A context is accepted. -/
def accept (t : Tickets C) (pb : C) : Tickets C :=
  { t with
    pending := t.pending ++ [(t.issued, pb)], issued := t.issued + 1
    withdrawn := Function.update t.withdrawn pb false }

/-- A context is removed. -/
def withdraw (t : Tickets C) (pb : C) : Tickets C :=
  { t with
    pending := t.pending.filter fun e => decide (e.2 ≠ pb)
    removed := t.removed ++ t.pending.filter fun e => decide (e.2 = pb)
    withdrawn := Function.update t.withdrawn pb true }

/-- The first one is processed. -/
def serve (t : Tickets C) : Tickets C :=
  { t with served := t.served ++ t.pending.take 1, pending := t.pending.drop 1 }

/-- The contexts are processed in the order in which they were accepted, each of them once unless
    it is removed; and what has been removed is not pending. -/
structure Right (t : Tickets C) : Prop where
  inOrder : ((t.served ++ t.pending).map Prod.fst).Pairwise (· < ·)
  issued : ∀ e ∈ t.served ++ t.pending ++ t.removed, e.1 < t.issued
  accounted : ∀ n < t.issued, n ∈ (t.served ++ t.pending ++ t.removed).map Prod.fst
  apart : ∀ e ∈ t.removed, e.1 ∉ (t.served ++ t.pending).map Prod.fst
  withdrawn : ∀ c, t.withdrawn c = true → c ∉ t.pending.map Prod.snd

variable {t : Tickets C} {pb : C}

omit [DecidableEq C] in
lemma right_init : Right ({} : Tickets C) where
  inOrder := List.Pairwise.nil
  issued := List.forall_mem_nil _
  accounted := fun n hn => absurd hn (Nat.not_lt_zero n)
  apart := List.forall_mem_nil _
  withdrawn := fun _ h => by cases h

lemma Right.accept (h : t.Right) : (t.accept pb).Right := by
  have hlist : (t.accept pb).served ++ (t.accept pb).pending =
      t.served ++ t.pending ++ [(t.issued, pb)] := (List.append_assoc _ _ _).symm
  have hlt : ∀ e ∈ t.served ++ t.pending, e.1 < t.issued := fun e he =>
    h.issued e (List.mem_append_left _ he)
  refine ⟨?_, ?_, ?_, ?_, ?_⟩
  · rw [hlist, List.map_append, List.pairwise_append]
    refine ⟨h.inOrder, List.pairwise_singleton _ _, ?_⟩
    intro m hm n hn
    obtain ⟨e, he, rfl⟩ := List.mem_map.mp hm
    rw [List.mem_singleton.mp hn]
    exact hlt e he
  · rw [hlist]
    intro e he
    change e.1 < t.issued + 1
    rcases List.mem_append.mp he with he | he
    · rcases List.mem_append.mp he with he | he
      · exact Nat.lt_succ_of_lt (hlt e he)
      · rw [List.mem_singleton.mp he]
        exact Nat.lt_succ_self _
    · exact Nat.lt_succ_of_lt (h.issued e (List.mem_append_right _ he))
  · rw [hlist]
    intro n hn
    change n ∈ (t.served ++ t.pending ++ [(t.issued, pb)] ++ t.removed).map Prod.fst
    rcases Nat.lt_succ_iff_lt_or_eq.mp hn with hn | rfl
    · have hmem := h.accounted n hn
      simp only [List.map_append, List.mem_append] at hmem ⊢
      rcases hmem with (hmem | hmem) | hmem
      · exact .inl (.inl (.inl hmem))
      · exact .inl (.inl (.inr hmem))
      · exact .inr hmem
    · simp
  · rw [hlist]
    intro e he hmem
    rw [List.map_append, List.mem_append] at hmem
    rcases hmem with hmem | hmem
    · exact h.apart e he hmem
    · have hnumber : e.1 = t.issued := List.mem_singleton.mp hmem
      exact Nat.ne_of_lt (h.issued e (List.mem_append_right _ he)) hnumber
  · intro c hc hmem
    change Function.update t.withdrawn pb false c = true at hc
    by_cases hcpb : c = pb
    · rw [hcpb, Function.update_self] at hc
      cases hc
    · rw [Function.update_of_ne hcpb] at hc
      change c ∈ (t.pending ++ [(t.issued, pb)]).map Prod.snd at hmem
      rw [List.map_append, List.mem_append] at hmem
      rcases hmem with hmem | hmem
      · exact h.withdrawn c hc hmem
      · exact hcpb (List.mem_singleton.mp hmem)

omit [DecidableEq C] in
/-- A number is that of one context only. -/
lemma Right.number_unique (h : t.Right) {e f : Nat × C} (he : e ∈ t.pending)
    (hf : f ∈ t.served ++ t.pending) (heq : f.1 = e.1) : f ∈ t.pending ∧ f = e := by
  have hnodup : ((t.served ++ t.pending).map Prod.fst).Nodup := h.inOrder.imp Nat.ne_of_lt
  have hsame : f = e :=
    List.inj_on_of_nodup_map hnodup hf (List.mem_append_right _ he) heq
  exact ⟨hsame ▸ he, hsame⟩

omit [DecidableEq C] in
/-- What has been processed is not pending. -/
lemma Right.not_pending (h : t.Right) {e : Nat × C} (he : e ∈ t.served) : e ∉ t.pending := by
  intro hpending
  have hdisjoint := (List.pairwise_append.mp ((List.map_append (f := Prod.fst)) ▸ h.inOrder)).2.2
  exact Nat.lt_irrefl _ (hdisjoint e.1 (List.mem_map_of_mem he) e.1 (List.mem_map_of_mem hpending))

lemma Right.withdraw (h : t.Right) : (t.withdraw pb).Right := by
  have hfilter : ∀ e ∈ t.served ++ t.pending.filter (fun e => decide (e.2 ≠ pb)),
      e ∈ t.served ++ t.pending := fun e he =>
    (List.Sublist.append_left List.filter_sublist _).subset he
  refine ⟨?_, ?_, ?_, ?_, ?_⟩
  · exact h.inOrder.sublist ((List.Sublist.append_left List.filter_sublist _).map _)
  · intro e he
    refine h.issued e ?_
    rcases List.mem_append.mp he with he | he
    · exact List.mem_append_left _ (hfilter e he)
    · rcases List.mem_append.mp he with he | he
      · exact List.mem_append_right _ he
      · exact List.mem_append_left _ (List.mem_append_right _ (List.mem_of_mem_filter he))
  · intro n hn
    obtain ⟨e, he, rfl⟩ := List.mem_map.mp (h.accounted n hn)
    refine List.mem_map_of_mem ?_
    rcases List.mem_append.mp he with he | he
    · rcases List.mem_append.mp he with he | he
      · exact List.mem_append_left _ (List.mem_append_left _ he)
      · by_cases hpb : e.2 = pb
        · exact List.mem_append_right _ (List.mem_append_right _
            (List.mem_filter.mpr ⟨he, decide_eq_true hpb⟩))
        · exact List.mem_append_left _ (List.mem_append_right _
            (List.mem_filter.mpr ⟨he, decide_eq_true hpb⟩))
    · exact List.mem_append_right _ (List.mem_append_left _ he)
  · intro e he hmem
    obtain ⟨f, hf, heq⟩ := List.mem_map.mp hmem
    rcases List.mem_append.mp he with he | he
    · exact h.apart e he (heq ▸ List.mem_map_of_mem (hfilter f hf))
    · obtain ⟨hpending, hpb⟩ := List.mem_filter.mp he
      obtain ⟨hf', hsame⟩ := h.number_unique hpending (hfilter f hf) heq
      rcases List.mem_append.mp hf with hf | hf
      · exact h.not_pending hf hf'
      · have hne := of_decide_eq_true (List.mem_filter.mp hf).2
        rw [hsame] at hne
        exact hne (of_decide_eq_true hpb)
  · intro c hc hmem
    change Function.update t.withdrawn pb true c = true at hc
    obtain ⟨e, he, rfl⟩ := List.mem_map.mp hmem
    obtain ⟨hpending, hne⟩ := List.mem_filter.mp he
    rw [Function.update_of_ne (of_decide_eq_true hne)] at hc
    exact h.withdrawn e.2 hc (List.mem_map_of_mem hpending)

omit [DecidableEq C] in
lemma Right.serve (h : t.Right) : t.serve.Right := by
  have hsame : t.serve.served ++ t.serve.pending = t.served ++ t.pending := by
    rw [Tickets.serve, List.append_assoc, List.take_append_drop]
  refine ⟨?_, ?_, ?_, ?_, ?_⟩
  · rw [hsame]
    exact h.inOrder
  · rw [hsame]
    exact h.issued
  · rw [hsame]
    exact h.accounted
  · rw [hsame]
    exact h.apart
  · intro c hc hmem
    refine h.withdrawn c hc ?_
    obtain ⟨e, he, rfl⟩ := List.mem_map.mp hmem
    exact List.mem_map_of_mem (List.mem_of_mem_drop he)

end Tickets

/-! ## The ring next to the tickets -/

/-- The thread that processes the queue: between two contexts, with a context that it has taken out
    and not got hold of, and in `pbnc_fsm`. -/
inductive Worker (C : Type u)
  | idle
  | taken (pb : C)
  | processing (pb : C)
  deriving DecidableEq

/-- A context that has been taken out is still to be processed. -/
def Worker.waiting : Worker C → List C
  | .taken pb => [pb]
  | _ => []

/-- The queue, the thread, and the contexts that it has processed. -/
structure QueueSystem (C : Type u) where
  queue : CallbackQueue C
  worker : Worker C := .idle
  processed : List C := []
  tickets : Tickets C := {}

/-- What threads do: the calls, which `pbnc_fsm` makes as well, and the steps of
    `pbpal_ntf_callback_process_queue`. -/
inductive QueueAction (C : Type u)
  | enqueue (pb : C)
  | requeue (pb : C)
  | remove (pb : C)
  | takeOut
  | process
  | finish

namespace QueueSystem

variable (size : Nat) (s : QueueSystem C)

/-- A context has been accepted if the result is 1. -/
def accept (pb : C) (result : CallbackQueue C × Int) : QueueSystem C :=
  { s with
    queue := result.1
    tickets := if result.2 = 1 then s.tickets.accept pb else s.tickets }

/-- An action, if the thread can do it. -/
def step : QueueAction C → Option (QueueSystem C)
  | .enqueue pb => some (s.accept pb (enqueueForProcessing size s.queue pb))
  | .requeue pb => (requeueForProcessing size s.queue pb).map (s.accept pb)
  | .remove pb =>
      (removeFromQueue size s.queue pb).map fun queue =>
        { s with queue := queue, tickets := s.tickets.withdraw pb }
  | .takeOut =>
      match s.worker with
      | .idle =>
          (takeOut size s.queue).map fun (pointer, queue) =>
            { s with queue := queue, worker := pointer.elim .idle .taken }
      | _ => none
  | .process =>
      match s.worker with
      | .taken pb =>
          some { s with
            worker := .processing pb, processed := s.processed ++ [pb], tickets := s.tickets.serve }
      | _ => none
  | .finish =>
      match s.worker with
      | .processing _ => some { s with worker := .idle }
      | _ => none

end QueueSystem

/-- A context that is removed is in the queue at most once, and not taken out of it to be
    processed. -/
def QueueClear (size : Nat) (s : QueueSystem C) : QueueAction C → Prop
  | .remove pb => (s.queue.toList size).count (some pb) ≤ 1 ∧ s.worker ≠ .taken pb
  | _ => True

/-- `pbpal_ntf_callback_queue_init`, for an array with anything in it. -/
def queueMachine (size : Nat) (cells : Nat → Option C) :
    Machine (QueueSystem C) (QueueAction C) where
  init := { queue := ⟨cells, 0, 0⟩ }
  step := QueueSystem.step size

/-- The contexts that are to be processed are the pending ones, in their order. -/
structure QueueInvariant (size : Nat) (s : QueueSystem C) (l : List (Option C)) : Prop where
  holds : s.queue.Holds size l
  pending : s.worker.waiting ++ l.filterMap id = s.tickets.pending.map Prod.snd
  processed : s.processed = s.tickets.served.map Prod.snd
  right : s.tickets.Right

section Steps

variable {size : Nat} {s s' : QueueSystem C} {l : List (Option C)} {pb : C}

/-- A context is accepted or not. -/
lemma QueueInvariant.accept (h : QueueInvariant size s l) (pb : C) {result : CallbackQueue C × Int}
    (hresult : (result.2 = 1 ∧ result.1.Holds size (l ++ [some pb])) ∨
      (result.1 = s.queue ∧ result.2 ≠ 1)) : ∃ l', QueueInvariant size (s.accept pb result) l' := by
  rcases hresult with ⟨hone, hholds⟩ | ⟨hqueue, hone⟩
  · have htickets : (s.accept pb result).tickets = s.tickets.accept pb := if_pos hone
    refine ⟨l ++ [some pb], hholds, ?_, ?_, ?_⟩
    · rw [htickets]
      change s.worker.waiting ++ (l ++ [some pb]).filterMap id =
        (s.tickets.pending ++ [(s.tickets.issued, pb)]).map Prod.snd
      rw [List.filterMap_append, List.map_append, ← h.pending, List.append_assoc]
      rfl
    · rw [htickets]
      exact h.processed
    · rw [htickets]
      exact h.right.accept
  · have hsame : s.accept pb result = s := by
      rw [QueueSystem.accept, hqueue, if_neg hone]
    exact ⟨l, hsame.symm ▸ h⟩

lemma QueueInvariant.enqueue (h : QueueInvariant size s l) (pb : C) :
    ∃ l', QueueInvariant size (s.accept pb (enqueueForProcessing size s.queue pb)) l' := by
  refine h.accept pb ?_
  rcases enqueueForProcessing_of_holds pb h.holds with ⟨-, hone, hholds⟩ | ⟨-, heq⟩
  · exact .inl ⟨hone, hholds⟩
  · rw [heq]
    exact .inr ⟨rfl, (by decide : (-1 : Int) ≠ 1)⟩

lemma QueueInvariant.requeue (h : QueueInvariant size s l) (pb : C) : ∃ result l',
    requeueForProcessing size s.queue pb = some result ∧
      QueueInvariant size (s.accept pb result) l' := by
  rw [requeueForProcessing_of_holds h.holds]
  split
  · have hrefused : (s.queue, (0 : Int)).1 = s.queue ∧ (s.queue, (0 : Int)).2 ≠ 1 :=
      ⟨rfl, (by decide : (0 : Int) ≠ 1)⟩
    obtain ⟨l', hl'⟩ := h.accept pb (.inr hrefused)
    exact ⟨_, l', rfl, hl'⟩
  · obtain ⟨l', hl'⟩ := h.enqueue pb
    exact ⟨_, l', rfl, hl'⟩

/-- Without a context nothing is to be taken out of a list. -/
lemma filter_filterMap (hl : some pb ∉ l) :
    (l.filterMap id).filter (fun c => decide (c ≠ pb)) = l.filterMap id := by
  refine List.filter_eq_self.mpr fun c hc => decide_eq_true ?_
  rintro rfl
  obtain ⟨a, ha, heq⟩ := List.mem_filterMap.mp hc
  rw [id_eq] at heq
  exact hl (heq ▸ ha)

/-- Removing a context. -/
lemma QueueInvariant.remove (h : QueueInvariant size s l)
    (hclear : QueueClear size s (.remove pb)) : ∃ queue' l',
      removeFromQueue size s.queue pb = some queue' ∧
        QueueInvariant size { s with queue := queue', tickets := s.tickets.withdraw pb } l' := by
  obtain ⟨hcount, hworker⟩ := hclear
  rw [h.holds.toList_eq] at hcount
  have hwaiting : s.worker.waiting.filter (fun c => decide (c ≠ pb)) = s.worker.waiting := by
    refine List.filter_eq_self.mpr fun c hc => decide_eq_true ?_
    rintro rfl
    cases hw : s.worker with
    | idle =>
        rw [hw] at hc
        cases hc
    | taken d =>
        rw [hw] at hc hworker
        exact hworker (congrArg Worker.taken (List.mem_singleton.mp hc).symm)
    | processing d =>
        rw [hw] at hc
        cases hc
  have hpending : ((s.tickets.withdraw pb).pending).map Prod.snd =
      s.worker.waiting ++ (l.filterMap id).filter fun c => decide (c ≠ pb) := by
    change (s.tickets.pending.filter fun e => decide (e.2 ≠ pb)).map Prod.snd = _
    have hmap : (s.tickets.pending.filter fun e => decide (e.2 ≠ pb)).map Prod.snd =
        (s.tickets.pending.map Prod.snd).filter fun c => decide (c ≠ pb) := by
      rw [List.filter_map]
      rfl
    rw [hmap, ← h.pending, List.filter_append, hwaiting]
  by_cases hmem : some pb ∈ l
  · obtain ⟨u, v, rfl, hu⟩ := List.eq_append_cons_of_mem hmem
    have hv : some pb ∉ v := by
      rw [List.count_append, List.count_cons_self] at hcount
      exact List.count_eq_zero.mp (by omega)
    obtain ⟨queue', heq, hholds⟩ := removeFromQueue_of_mem h.holds hu
    refine ⟨queue', _, heq, hholds, ?_, h.processed, h.right.withdraw⟩
    have hthere : (u ++ some pb :: v).filterMap id = u.filterMap id ++ pb :: v.filterMap id := by
      rw [List.filterMap_append]
      rfl
    have hblank : (u ++ none :: v).filterMap id = u.filterMap id ++ v.filterMap id := by
      rw [List.filterMap_append]
      rfl
    rw [hpending, hthere, List.filter_append, List.filter_cons_of_neg (by simp),
      filter_filterMap hu, filter_filterMap hv]
    change s.worker.waiting ++ (u ++ none :: v).filterMap id = _
    rw [hblank]
  · refine ⟨_, l, removeFromQueue_of_not_mem h.holds hmem, h.holds, ?_, h.processed,
      h.right.withdraw⟩
    rw [hpending, filter_filterMap hmem]

omit [DecidableEq C] in
/-- Taking a context out. -/
lemma QueueInvariant.takeOut {a : Option C} (h : QueueInvariant size s (a :: l))
    (hworker : s.worker = .idle) : ∃ queue', PubNub.takeOut size s.queue = some (a, queue') ∧
      QueueInvariant size { s with queue := queue', worker := a.elim .idle .taken } l := by
  obtain ⟨queue', heq, hholds⟩ := takeOut_of_holds h.holds
  refine ⟨queue', heq, hholds, ?_, h.processed, h.right⟩
  have hpending := h.pending
  rw [hworker] at hpending
  cases a with
  | none => exact hpending
  | some c => exact hpending

omit [DecidableEq C] in
/-- A context that has been taken out is the first one that is pending. -/
lemma QueueInvariant.pending_cons (h : QueueInvariant size s l) (hworker : s.worker = .taken pb) :
    ∃ e rest, s.tickets.pending = e :: rest ∧ e.2 = pb := by
  have hpending := h.pending
  rw [hworker] at hpending
  cases hcases : s.tickets.pending with
  | nil =>
      rw [hcases] at hpending
      cases hpending
  | cons e rest =>
      rw [hcases, List.map_cons] at hpending
      exact ⟨e, rest, rfl, (List.cons.inj hpending).1.symm⟩

omit [DecidableEq C] in
/-- Processing it. -/
lemma QueueInvariant.process (h : QueueInvariant size s l) (hworker : s.worker = .taken pb) :
    QueueInvariant size { s with
      worker := .processing pb, processed := s.processed ++ [pb], tickets := s.tickets.serve } l ∧
    s.tickets.withdrawn pb = false := by
  obtain ⟨e, rest, hlist, rfl⟩ := h.pending_cons hworker
  have hrest := h.pending
  rw [hworker, hlist] at hrest
  refine ⟨⟨h.holds, ?_, ?_, h.right.serve⟩, ?_⟩
  · change [] ++ l.filterMap id = (s.tickets.pending.drop 1).map Prod.snd
    rw [hlist]
    exact (List.cons.inj hrest).2
  · change s.processed ++ [e.2] = (s.tickets.served ++ s.tickets.pending.take 1).map Prod.snd
    rw [h.processed, hlist, List.map_append]
    rfl
  · by_contra hwithdrawn
    rw [Bool.not_eq_false] at hwithdrawn
    refine h.right.withdrawn e.2 hwithdrawn ?_
    rw [hlist]
    exact List.mem_cons_self

omit [DecidableEq C] in
/-- The context has been processed. -/
lemma QueueInvariant.finish (h : QueueInvariant size s l) (hworker : s.worker = .processing pb) :
    QueueInvariant size { s with worker := .idle } l := by
  have hpending := h.pending
  rw [hworker] at hpending
  exact ⟨h.holds, hpending, h.processed, h.right⟩

/-- Every action keeps the invariant. -/
lemma QueueInvariant.step (h : QueueInvariant size s l) {action : QueueAction C}
    (hclear : QueueClear size s action) (hstep : s.step size action = some s') :
    ∃ l', QueueInvariant size s' l' := by
  cases action with
  | enqueue pb =>
      cases hstep
      exact h.enqueue pb
  | requeue pb =>
      obtain ⟨result, l', heq, hinv⟩ := h.requeue pb
      rw [QueueSystem.step, heq] at hstep
      cases hstep
      exact ⟨l', hinv⟩
  | remove pb =>
      obtain ⟨queue', l', heq, hinv⟩ := h.remove hclear
      rw [QueueSystem.step, heq] at hstep
      cases hstep
      exact ⟨l', hinv⟩
  | takeOut =>
      cases hworker : s.worker with
      | idle =>
          rw [QueueSystem.step, hworker] at hstep
          cases l with
          | nil =>
              rw [takeOut_of_empty h.holds] at hstep
              cases hstep
          | cons a l =>
              obtain ⟨queue', heq, hinv⟩ := h.takeOut hworker
              rw [heq] at hstep
              cases hstep
              exact ⟨l, hinv⟩
      | taken pb =>
          rw [QueueSystem.step, hworker] at hstep
          cases hstep
      | processing pb =>
          rw [QueueSystem.step, hworker] at hstep
          cases hstep
  | process =>
      cases hworker : s.worker with
      | taken pb =>
          rw [QueueSystem.step, hworker] at hstep
          cases hstep
          exact ⟨l, (h.process hworker).1⟩
      | idle =>
          rw [QueueSystem.step, hworker] at hstep
          cases hstep
      | processing pb =>
          rw [QueueSystem.step, hworker] at hstep
          cases hstep
  | finish =>
      cases hworker : s.worker with
      | processing pb =>
          rw [QueueSystem.step, hworker] at hstep
          cases hstep
          exact ⟨l, h.finish hworker⟩
      | idle =>
          rw [QueueSystem.step, hworker] at hstep
          cases hstep
      | taken pb =>
          rw [QueueSystem.step, hworker] at hstep
          cases hstep

/-- In every run. -/
lemma queueInvariant_run {cells : Nat → Option C} (hsize : 0 < size)
    (hs : (queueMachine size cells).Reachable (QueueClear size) s) :
    ∃ l, QueueInvariant size s l := by
  refine hs.invariant (P := fun s => ∃ l, QueueInvariant size s l) ?_ ?_
  · exact ⟨[], Ring.Holds.empty hsize, rfl, rfl, Tickets.right_init⟩
  · rintro s action s' ⟨l, h⟩ hclear hstep
    exact h.step hclear hstep

/-- `pbpal_ntf_callback_process_queue`, when no other thread comes in between. -/
def processQueue (size : Nat) : Nat → QueueSystem C → Option (QueueSystem C)
  | 0, _ => none
  | fuel + 1, s =>
      match PubNub.takeOut size s.queue with
      | none => some s
      | some (none, queue) => processQueue size fuel { s with queue := queue }
      | some (some pb, queue) =>
          processQueue size fuel
            { s with
              queue := queue, processed := s.processed ++ [pb], tickets := s.tickets.serve }

omit [DecidableEq C] in
/-- It processes all the contexts that are pending. -/
lemma QueueInvariant.processQueue_eq {fuel : Nat} (h : QueueInvariant size s l)
    (hworker : s.worker = .idle) (hfuel : l.length < fuel) :
    ∃ s', processQueue size fuel s = some s' ∧
      s'.processed = s.processed ++ s.tickets.pending.map Prod.snd ∧
      s'.tickets.served = s.tickets.served ++ s.tickets.pending ∧ s'.tickets.pending = [] := by
  induction l generalizing s fuel with
  | nil =>
      obtain ⟨fuel, rfl⟩ := Nat.exists_eq_succ_of_ne_zero (Nat.ne_zero_of_lt hfuel)
      have hempty : s.tickets.pending = [] := by
        have hpending := h.pending
        rw [hworker] at hpending
        exact List.map_eq_nil_iff.mp hpending.symm
      refine ⟨s, ?_, ?_, ?_, hempty⟩
      · rw [processQueue, takeOut_of_empty h.holds]
      · rw [hempty, List.map_nil, List.append_nil]
      · rw [hempty, List.append_nil]
  | cons a l ih =>
      obtain ⟨fuel, rfl⟩ := Nat.exists_eq_succ_of_ne_zero (Nat.ne_zero_of_lt hfuel)
      obtain ⟨queue', heq, hinv⟩ := h.takeOut hworker
      have hlt := Nat.lt_of_succ_lt_succ hfuel
      rw [processQueue, heq]
      cases a with
      | none =>
          have hstate : { s with queue := queue', worker := Worker.idle } =
              { s with queue := queue' } := by rw [hworker]
          have hrest := ih hinv rfl hlt
          change ∃ s', processQueue size fuel { s with queue := queue' } = some s' ∧ _
          rw [← hstate]
          exact hrest
      | some pb =>
          have hserved := (hinv.process rfl).1.finish rfl
          obtain ⟨e, rest, hpending, hpb⟩ := hinv.pending_cons rfl
          change s.tickets.pending = e :: rest at hpending
          obtain ⟨s', hs', hprocessed, hserved', hnone⟩ := ih hserved rfl hlt
          refine ⟨s', ?_, ?_, ?_, hnone⟩
          · rw [← hs']
            change processQueue size fuel { s with
              queue := queue', processed := s.processed ++ [pb], tickets := s.tickets.serve } = _
            rw [hworker]
          · rw [hprocessed]
            change s.processed ++ [pb] ++ (s.tickets.pending.drop 1).map Prod.snd = _
            rw [hpending, List.map_cons, hpb, List.append_assoc]
            rfl
          · rw [hserved']
            change s.tickets.served ++ s.tickets.pending.take 1 ++ s.tickets.pending.drop 1 = _
            rw [List.append_assoc, List.take_append_drop]

end Steps

/-! ## What holds in every run -/

/-- The ring does what the tickets say. -/
structure QueueRight (size : Nat) (s : QueueSystem C) : Prop where
  processed : s.processed = s.tickets.served.map Prod.snd
  pending : s.worker.waiting ++ (s.queue.toList size).filterMap id =
    s.tickets.pending.map Prod.snd
  tickets : s.tickets.Right

/-- **The queue of contexts.**  In every run whose removals are clear, the contexts are processed in
    the order in which they were accepted, each once unless it is removed before; a context that is
    being taken to be processed has not been removed since it was accepted; a queue without room
    rejects a context and is what it was; the other calls return, and what is pending gets
    processed. -/
theorem callbackQueue_right {size : Nat} (hsize : 0 < size) {cells : Nat → Option C}
    {s : QueueSystem C} (hs : (queueMachine size cells).Reachable (QueueClear size) s) :
    QueueRight size s ∧
    (∀ pb, s.worker = .taken pb → s.tickets.withdrawn pb = false) ∧
    (∀ pb, if (s.queue.toList size).length + 1 = size then s.step size (.enqueue pb) = some s
      else (enqueueForProcessing size s.queue pb).2 = 1) ∧
    (∀ pb, (s.step size (.requeue pb)).isSome = true ∧ (s.step size (.remove pb)).isSome = true) ∧
    (s.worker = .idle → ∀ fuel ≥ size, ∃ s', processQueue size fuel s = some s' ∧
      s'.processed = s.processed ++ s.tickets.pending.map Prod.snd ∧
      s'.tickets.served = s.tickets.served ++ s.tickets.pending ∧ s'.tickets.pending = []) := by
  obtain ⟨l, h⟩ := queueInvariant_run hsize hs
  refine ⟨⟨h.processed, ?_, h.right⟩, ?_, ?_, ?_, ?_⟩
  · rw [h.holds.toList_eq]
    exact h.pending
  · intro pb hworker
    exact (h.process hworker).2
  · intro pb
    rw [h.holds.toList_eq]
    rcases enqueueForProcessing_of_holds pb h.holds with ⟨hroom, hone, -⟩ | ⟨hfull, heq⟩
    · rw [if_neg (Nat.ne_of_lt hroom)]
      exact hone
    · rw [if_pos hfull, QueueSystem.step, heq]
      rfl
  · intro pb
    constructor
    · obtain ⟨result, l', heq, -⟩ := h.requeue pb
      rw [QueueSystem.step, heq]
      rfl
    · rw [QueueSystem.step, Option.isSome_map]
      by_cases hmem : some pb ∈ l
      · obtain ⟨u, v, rfl, hu⟩ := List.eq_append_cons_of_mem hmem
        obtain ⟨queue', heq, -⟩ := removeFromQueue_of_mem h.holds hu
        rw [heq]
        rfl
      · rw [removeFromQueue_of_not_mem h.holds hmem]
        rfl
  · intro hworker fuel hfuel
    exact h.processQueue_eq hworker (Nat.lt_of_lt_of_le h.holds.short hfuel)

theorem callbackQueue_right_one : ∃ s : QueueSystem Nat,
    (queueMachine 4 fun _ => none).Reachable (QueueClear 4) s ∧ s.worker = .taken 7 ∧
      QueueRight 4 s := by
  have hone : (queueMachine 4 fun _ => none).Reachable (QueueClear 4) _ :=
    .step .init (a := .enqueue 7) trivial rfl
  have hs : (queueMachine 4 fun _ => none).Reachable (QueueClear 4) _ :=
    .step hone (a := .takeOut) trivial rfl
  exact ⟨_, hs, rfl, (callbackQueue_right (by decide) hs).1⟩

/-- A context that has been accepted twice and removed, and which is taken to be processed all the
    same. -/
theorem callbackQueue_not_always_right :
    ∃ s : QueueSystem Nat, (queueMachine 4 fun _ => none).replay (fun _ _ => true)
        (queueMachine 4 fun _ => none).init
        [.enqueue 7, .enqueue 7, .remove 7, .takeOut, .takeOut] = some s ∧
      s.worker = .taken 7 ∧ s.tickets.withdrawn 7 = true :=
  ⟨_, rfl, rfl, rfl⟩

end PubNub
