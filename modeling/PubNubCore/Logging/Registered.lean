import PubNubCore.Logging.LoggerManager
import Mathlib.Data.List.Perm.Subperm

/-!
# Who is told about a message

Every list of loggers ends, in every run, so that a message is always delivered to somebody and
`pbcc_logger_manager_log_message` returns (`LoggerState.Ends`).  It is told to the loggers that are
registered as long as no `next` pointer that another manager relies on changes its value
(`LoggerClear`, `LoggerState.Linked`).
-/

namespace PubNub

/-- No call changes the pointer of a logger with which another manager's list goes on.  A manager
    without a default logger tells nobody, so nothing is registered with it. -/
def LoggerClear {n : Nat} (config : LoggerConfig n) (s : LoggerState n) : LoggerCall n → Prop
  | .loggerAdd m l => l ∉ (s.managers m).registered →
      (config.useDefaultLogger = true → (s.managers m).defaultLogger ≠ none) ∧
      ∀ m', m' ≠ m → l ∈ (s.managers m').registered → s.next l = (s.managers m).loggers
  | .loggerRemove m l => l ∈ (s.managers m).registered →
      ∀ m', m' ≠ m → (l ∈ (s.managers m').registered → s.next l = none) ∧
        ∀ previous ∈ (s.managers m).registered, s.next previous = some l →
          previous ∉ (s.managers m').registered
  | _ => True

instance {n : Nat} (config : LoggerConfig n) (s : LoggerState n) :
    ∀ call, Decidable (LoggerClear config s call)
  | .loggerAdd m l => inferInstanceAs (Decidable (l ∉ (s.managers m).registered →
      (config.useDefaultLogger = true → (s.managers m).defaultLogger ≠ none) ∧
      ∀ m', m' ≠ m → l ∈ (s.managers m').registered → s.next l = (s.managers m).loggers))
  | .loggerRemove m l => inferInstanceAs (Decidable (l ∈ (s.managers m).registered →
      ∀ m', m' ≠ m → (l ∈ (s.managers m').registered → s.next l = none) ∧
        ∀ previous ∈ (s.managers m).registered, s.next previous = some l →
          previous ∉ (s.managers m').registered))
  | .loggerAlloc _ => inferInstanceAs (Decidable True)
  | .loggerRemoveAll _ => inferInstanceAs (Decidable True)
  | .logMessage _ _ => inferInstanceAs (Decidable True)

namespace LoggerState

variable {n : Nat} {config : LoggerConfig n} {s s' : LoggerState n} {m m' : Fin n} {l a : Nat}
  {p : Option Nat}

/-! ## What the writes do -/

@[simp] lemma length_objects_setNext : (s.setNext a p).objects.length = s.objects.length :=
  List.length_modify _ _ _

@[simp] lemma limit_setNext : (s.setNext a p).limit = s.limit := by
  rw [limit, length_objects_setNext, limit]

@[simp] lemma managers_setNext : (s.setNext a p).managers = s.managers := rfl

lemma next_setNext (ha : a < s.objects.length) (b : Nat) :
    (s.setNext a p).next b = if b = a then p else s.next b := by
  rw [next, setNext, List.getElem?_modify]
  by_cases hba : b = a
  · subst hba
    rw [List.getElem?_eq_getElem ha]
    simp
  · rw [if_neg hba, next]
    cases s.objects[b]? with
    | none => rfl
    | some logger => simp [Ne.symm hba]

lemma next_setNext_of_ne (ha : a < s.objects.length) {b : Nat} (hba : b ≠ a) :
    (s.setNext a p).next b = s.next b := by
  rw [next_setNext ha, if_neg hba]

@[simp] lemma takes_setNext (level : PubnubLogLevel) : (s.setNext a p).takes l level =
    s.takes l level := by
  rw [takes, setNext, List.getElem?_modify, takes]
  cases s.objects[l]? with
  | none => rfl
  | some logger => by_cases hal : a = l <;> simp [hal, PubnubLogger.takes]

@[simp] lemma objects_setLoggers : (s.setLoggers m p).objects = s.objects := rfl

@[simp] lemma next_setLoggers : (s.setLoggers m p).next = s.next := rfl

@[simp] lemma limit_setLoggers : (s.setLoggers m p).limit = s.limit := rfl

@[simp] lemma takes_setLoggers (level : PubnubLogLevel) : (s.setLoggers m p).takes l level =
    s.takes l level := rfl

@[simp] lemma loggers_setLoggers_self : ((s.setLoggers m p).managers m).loggers = p := by
  simp [setLoggers]

@[simp] lemma defaultLogger_setLoggers_self : ((s.setLoggers m p).managers m).defaultLogger =
    (s.managers m).defaultLogger.map fun logger => { logger with next := p } := by
  simp [setLoggers]

@[simp] lemma registered_setLoggers :
    ((s.setLoggers m p).managers m').registered = (s.managers m').registered := by
  by_cases hm : m' = m
  · subst hm
    simp [setLoggers]
  · simp [setLoggers, hm]

lemma managers_setLoggers_of_ne (hm : m' ≠ m) :
    (s.setLoggers m p).managers m' = s.managers m' := by
  simp [setLoggers, hm]

@[simp] lemma objects_setRegistered (ls : List Nat) :
    (s.setRegistered m ls).objects = s.objects := rfl

@[simp] lemma next_setRegistered (ls : List Nat) : (s.setRegistered m ls).next = s.next := rfl

@[simp] lemma limit_setRegistered (ls : List Nat) : (s.setRegistered m ls).limit = s.limit := rfl

@[simp] lemma takes_setRegistered (ls : List Nat) (level : PubnubLogLevel) :
    (s.setRegistered m ls).takes l level = s.takes l level := rfl

@[simp] lemma loggers_setRegistered (ls : List Nat) :
    ((s.setRegistered m ls).managers m').loggers = (s.managers m').loggers := by
  by_cases hm : m' = m
  · subst hm
    simp [setRegistered]
  · simp [setRegistered, hm]

@[simp] lemma defaultLogger_setRegistered (ls : List Nat) :
    ((s.setRegistered m ls).managers m').defaultLogger = (s.managers m').defaultLogger := by
  by_cases hm : m' = m
  · subst hm
    simp [setRegistered]
  · simp [setRegistered, hm]

@[simp] lemma registered_setRegistered_self (ls : List Nat) :
    ((s.setRegistered m ls).managers m).registered = ls := by
  simp [setRegistered]

lemma managers_setRegistered_of_ne (hm : m' ≠ m) (ls : List Nat) :
    (s.setRegistered m ls).managers m' = s.managers m' := by
  simp [setRegistered, hm]

lemma next_pubnubLoggerAlloc (vtable : PubnubLoggerInterface) :
    (s.pubnubLoggerAlloc vtable).next = s.next := by
  funext b
  rw [next, pubnubLoggerAlloc, next]
  rcases Nat.lt_trichotomy b s.objects.length with hlt | rfl | hgt
  · rw [List.getElem?_append_left hlt]
  · rw [List.getElem?_concat_length, List.getElem?_eq_none (Nat.le_refl _)]
    rfl
  · rw [List.getElem?_eq_none (by simp; omega), List.getElem?_eq_none (by omega)]

lemma takes_pubnubLoggerAlloc (vtable : PubnubLoggerInterface) (level : PubnubLogLevel)
    (hl : l < s.objects.length) :
    (s.pubnubLoggerAlloc vtable).takes l level = s.takes l level := by
  rw [takes, pubnubLoggerAlloc, takes, List.getElem?_append_left hl]

/-! ## Every list ends -/

/-- The list that begins at a pointer ends, and is one of loggers that have been allocated. -/
def EndsAt (s : LoggerState n) (p : Option Nat) : Prop :=
  ∃ ls, Chain s.next p ls ∧ ∀ a ∈ ls, a < s.objects.length

/-- Every list ends, and the default logger goes before the list of its manager. -/
structure Ends (s : LoggerState n) : Prop where
  object : ∀ a, a < s.objects.length → s.EndsAt (s.next a)
  manager : ∀ m, s.EndsAt (s.managers m).loggers
  default : ∀ m logger, (s.managers m).defaultLogger = some logger →
    logger.next = (s.managers m).loggers

lemma endsAt_none : s.EndsAt none := ⟨[], rfl, by simp⟩

lemma EndsAt.next (h : s.EndsAt (some a)) : s.EndsAt (s.next a) := by
  obtain ⟨ls, hls, hbound⟩ := h
  cases ls with
  | nil => cases hls
  | cons b ls =>
      obtain ⟨hab, hls⟩ := hls
      cases hab
      exact ⟨ls, hls, fun c hc => hbound c (List.mem_cons_of_mem _ hc)⟩

lemma EndsAt.cons (h : s.EndsAt (s.next a)) (ha : a < s.objects.length) : s.EndsAt (some a) := by
  obtain ⟨ls, hls, hbound⟩ := h
  refine ⟨a :: ls, ⟨rfl, hls⟩, fun b hb => ?_⟩
  rcases List.mem_cons.mp hb with rfl | hb
  · exact ha
  · exact hbound b hb

/-- A list is shorter than the limit. -/
lemma length_lt_limit {ls : List Nat} (h : Chain s.next p ls)
    (hbound : ∀ a ∈ ls, a < s.objects.length) : ls.length < s.limit := by
  have hsub : ls ⊆ List.range s.objects.length := fun a ha => List.mem_range.mpr (hbound a ha)
  have hlength := (List.subperm_of_subset h.nodup hsub).length_le
  rw [List.length_range] at hlength
  exact Nat.lt_succ_of_le hlength

/-- A pointer of which the list does not come back to the logger can be written to it. -/
lemma EndsAt.setNext {q : Option Nat} {ls : List Nat} (ha : a < s.objects.length)
    (hq : Chain s.next q ls) (hbound : ∀ b ∈ ls, b < s.objects.length) (hmem : a ∉ ls)
    (h : s.EndsAt p) : (s.setNext a q).EndsAt p := by
  have hq' : Chain (s.setNext a q).next (some a) (a :: ls) := by
    refine ⟨rfl, ?_⟩
    rw [next_setNext ha, if_pos rfl]
    refine hq.congr fun b hb => next_setNext_of_ne ha ?_
    rintro rfl
    exact hmem hb
  obtain ⟨us, hus, husBound⟩ := h
  by_cases hau : a ∈ us
  · obtain ⟨us₁, us₂, rfl⟩ := List.append_of_mem hau
    have hnot : ∀ b ∈ us₁, (s.setNext a q).next b = s.next b := by
      intro b hb
      refine next_setNext_of_ne ha ?_
      rintro rfl
      exact (List.disjoint_of_nodup_append hus.nodup) hb List.mem_cons_self
    refine ⟨us₁ ++ a :: ls, hus.append hnot hq', fun b hb => ?_⟩
    rw [length_objects_setNext]
    rcases List.mem_append.mp hb with hb | hb
    · exact husBound b (List.mem_append_left _ hb)
    · rcases List.mem_cons.mp hb with rfl | hb
      · exact ha
      · exact hbound b hb
  · refine ⟨us, hus.congr fun b hb => next_setNext_of_ne ha ?_, fun b hb => ?_⟩
    · rintro rfl
      exact hau hb
    · rw [length_objects_setNext]
      exact husBound b hb

lemma Ends.setNext {q : Option Nat} {ls : List Nat} (h : s.Ends) (ha : a < s.objects.length)
    (hq : Chain s.next q ls) (hbound : ∀ b ∈ ls, b < s.objects.length) (hmem : a ∉ ls) :
    (s.setNext a q).Ends where
  object b hb := by
    rw [length_objects_setNext] at hb
    exact (EndsAt.setNext ha hq hbound hmem ((h.object b hb).cons hb)).next
  manager m := EndsAt.setNext ha hq hbound hmem (h.manager m)
  default := h.default

lemma EndsAt.clearNext (h : s.EndsAt p) (ha : a < s.objects.length) :
    (s.setNext a none).EndsAt p :=
  EndsAt.setNext ha Chain.nil (by simp) (by simp) h

lemma Ends.clearNext (h : s.Ends) (ha : a < s.objects.length) : (s.setNext a none).Ends :=
  h.setNext ha Chain.nil (by simp) (by simp)

lemma Ends.setLoggers (h : s.Ends) (hp : s.EndsAt p) : (s.setLoggers m p).Ends where
  object := h.object
  manager m' := by
    by_cases hm : m' = m
    · subst hm
      rw [loggers_setLoggers_self]
      exact hp
    · rw [managers_setLoggers_of_ne hm]
      exact h.manager m'
  default m' logger hlogger := by
    by_cases hm : m' = m
    · subst hm
      rw [defaultLogger_setLoggers_self, Option.map_eq_some_iff] at hlogger
      obtain ⟨old, -, rfl⟩ := hlogger
      rw [loggers_setLoggers_self]
    · rw [managers_setLoggers_of_ne hm] at hlogger ⊢
      exact h.default m' logger hlogger

lemma Ends.setRegistered (h : s.Ends) (ls : List Nat) : (s.setRegistered m ls).Ends where
  object := h.object
  manager m' := by
    rw [loggers_setRegistered]
    exact h.manager m'
  default m' logger hlogger := by
    rw [defaultLogger_setRegistered] at hlogger
    rw [loggers_setRegistered]
    exact h.default m' logger hlogger

/-! ### The calls -/

lemma loggerAdd_absent {ls : List Nat} (hls : Chain s.next (s.managers m).loggers ls)
    (hbound : ∀ a ∈ ls, a < s.objects.length) (hl : l ∉ ls) :
    s.loggerAdd m l = some ((s.setNext l (s.managers m).loggers).setLoggers m (some l), 0) := by
  rw [loggerAdd, hls.locate_absent (length_lt_limit hls hbound) hl]

lemma loggerAdd_present {ls : List Nat} (hls : Chain s.next (s.managers m).loggers ls)
    (hbound : ∀ a ∈ ls, a < s.objects.length) (hl : l ∈ ls) :
    s.loggerAdd m l = some (s, -1) := by
  obtain ⟨l₁, l₂, rfl⟩ := List.append_of_mem hl
  have hlimit := length_lt_limit hls hbound
  rw [List.length_append] at hlimit
  have hnot : l ∉ l₁ := fun hm =>
    (List.disjoint_of_nodup_append hls.nodup) hm List.mem_cons_self
  rw [loggerAdd, hls.locate_present (by omega) hnot]
  cases hlast : l₁.getLast? <;> rfl

lemma loggerRemove_absent {ls : List Nat} (hls : Chain s.next (s.managers m).loggers ls)
    (hbound : ∀ a ∈ ls, a < s.objects.length) (hl : l ∉ ls) :
    s.loggerRemove m l = some (s, -1) := by
  rw [loggerRemove, hls.locate_absent (length_lt_limit hls hbound) hl]

lemma loggerRemove_first {ls : List Nat} (hls : Chain s.next (s.managers m).loggers (l :: ls)) :
    s.loggerRemove m l = some ((s.setNext l none).setLoggers m (s.next l), 0) := by
  have hnone : Chain s.next (s.managers m).loggers ([] ++ l :: ls) := hls
  have hlimit : ([] : List Nat).length < s.limit := Nat.succ_pos _
  rw [loggerRemove, hnone.locate_present hlimit (by simp)]
  rfl

lemma loggerRemove_after {l₁ l₂ : List Nat} {previous : Nat}
    (hls : Chain s.next (s.managers m).loggers (l₁ ++ previous :: l :: l₂))
    (hbound : ∀ a ∈ l₁ ++ previous :: l :: l₂, a < s.objects.length) :
    s.loggerRemove m l =
      some (((s.setNext previous (s.next l)).setNext l none).setLoggers m
        (s.managers m).loggers, 0) := by
  have hsplit : l₁ ++ previous :: l :: l₂ = (l₁ ++ [previous]) ++ l :: l₂ := by simp
  have hlimit := length_lt_limit hls hbound
  rw [hsplit] at hls hlimit
  rw [List.length_append] at hlimit
  have hnot : l ∉ l₁ ++ [previous] := fun hm =>
    (List.disjoint_of_nodup_append hls.nodup) hm List.mem_cons_self
  rw [loggerRemove, hls.locate_present (by omega) hnot, List.getLast?_concat]
  rfl

/-- Where a logger is in a list: nowhere, at its beginning, or behind another one. -/
lemma place_cases (l : Nat) (ls : List Nat) : l ∉ ls ∨ (∃ l₂, ls = l :: l₂) ∨
    ∃ l₁ previous l₂, ls = l₁ ++ previous :: l :: l₂ := by
  by_cases hl : l ∈ ls
  · right
    obtain ⟨l₁, l₂, rfl⟩ := List.append_of_mem hl
    rcases List.eq_nil_or_concat l₁ with rfl | ⟨l₁, previous, rfl⟩
    · exact .inl ⟨l₂, rfl⟩
    · exact .inr ⟨l₁, previous, l₂, by simp⟩
  · exact .inl hl

lemma Ends.loggerAdd (h : s.Ends) (hl : l < s.objects.length) :
    ∃ r, s.loggerAdd m l = some r ∧ r.1.Ends := by
  obtain ⟨ls, hls, hbound⟩ := h.manager m
  by_cases hmem : l ∈ ls
  · exact ⟨_, loggerAdd_present hls hbound hmem, h⟩
  · refine ⟨_, loggerAdd_absent hls hbound hmem, ?_⟩
    have hset := h.setNext hl hls hbound hmem
    refine hset.setLoggers (EndsAt.cons (hset.object l ?_) ?_) <;>
      rwa [length_objects_setNext]

lemma Ends.loggerRemove (h : s.Ends) (hl : l < s.objects.length) :
    ∃ r, s.loggerRemove m l = some r ∧ r.1.Ends := by
  obtain ⟨ls, hls, hbound⟩ := h.manager m
  rcases place_cases l ls with hmem | ⟨l₂, rfl⟩ | ⟨l₁, previous, l₂, rfl⟩
  · exact ⟨_, loggerRemove_absent hls hbound hmem, h⟩
  · refine ⟨_, loggerRemove_first hls, ?_⟩
    exact (h.clearNext hl).setLoggers ((h.object l hl).clearNext hl)
  · refine ⟨_, loggerRemove_after hls hbound, ?_⟩
    have hprevious : previous < s.objects.length := hbound previous (by simp)
    have hrest : Chain s.next (s.next l) l₂ := hls.drop_append.2.2
    have hnot : previous ∉ l₂ := fun hm =>
      (List.nodup_cons.mp hls.drop_append.nodup).1 (List.mem_cons_of_mem l hm)
    have hset := h.setNext hprevious hrest (fun b hb => hbound b (by simp [hb])) hnot
    have hset' := hset.clearNext (a := l) (by rwa [length_objects_setNext])
    exact hset'.setLoggers (hset'.manager m)

lemma Ends.logMessage (h : s.Ends) (level : PubnubLogLevel) :
    (s.logMessage m config level).isSome := by
  obtain ⟨ls, hls, hbound⟩ := h.manager m
  have hfollow := hls.follow_eq (length_lt_limit hls hbound)
  rw [LoggerState.logMessage]
  split
  · cases hd : (s.managers m).defaultLogger with
    | none => rfl
    | some logger =>
        dsimp only
        rw [h.default m logger hd, logToLoggers, hfollow]
        rfl
  · rw [logToLoggers, hfollow]
    rfl

lemma ends_init : (init config).Ends where
  object a ha := by simp [init] at ha
  manager m := endsAt_none
  default m logger hlogger := by
    simp only [init] at hlogger
    split at hlogger
    · obtain ⟨vtable, -, rfl⟩ := Option.map_eq_some_iff.mp hlogger
      rfl
    · cases hlogger

lemma Ends.pubnubLoggerAlloc (h : s.Ends) (vtable : PubnubLoggerInterface) :
    (s.pubnubLoggerAlloc vtable).Ends := by
  have hlength : (s.pubnubLoggerAlloc vtable).objects.length = s.objects.length + 1 := by
    simp [LoggerState.pubnubLoggerAlloc]
  have hends : ∀ {p}, s.EndsAt p → (s.pubnubLoggerAlloc vtable).EndsAt p := by
    rintro p ⟨ls, hls, hbound⟩
    refine ⟨ls, by rwa [next_pubnubLoggerAlloc], fun a ha => ?_⟩
    have := hbound a ha
    omega
  refine ⟨fun a ha => ?_, fun m => hends (h.manager m), h.default⟩
  rw [next_pubnubLoggerAlloc]
  rcases Nat.lt_or_ge a s.objects.length with hlt | hge
  · exact hends (h.object a hlt)
  · rw [next, List.getElem?_eq_none hge]
    exact endsAt_none

lemma Ends.step (h : s.Ends) {call : LoggerCall n} (hst : loggerStep config s call = some s') :
    s'.Ends := by
  cases call with
  | loggerAlloc vtable =>
      cases hst
      exact h.pubnubLoggerAlloc vtable
  | loggerAdd m l =>
      simp only [loggerStep, Option.ite_none_right_eq_some, Option.map_eq_some_iff] at hst
      obtain ⟨hl, r, hr, rfl⟩ := hst
      obtain ⟨r', hr', hends⟩ := h.loggerAdd hl (m := m)
      cases hr.symm.trans hr'
      exact hends.setRegistered _
  | loggerRemove m l =>
      simp only [loggerStep, Option.ite_none_right_eq_some, Option.map_eq_some_iff] at hst
      obtain ⟨hl, r, hr, rfl⟩ := hst
      obtain ⟨r', hr', hends⟩ := h.loggerRemove hl (m := m)
      cases hr.symm.trans hr'
      exact hends.setRegistered _
  | loggerRemoveAll m =>
      cases hst
      exact (h.setLoggers endsAt_none).setRegistered _
  | logMessage m level =>
      simp only [loggerStep, Option.map_eq_some_iff] at hst
      obtain ⟨-, -, rfl⟩ := hst
      exact h

/-! ## The lists are what is registered -/

/-- Every manager's list has the loggers that are registered with it. -/
structure Linked (config : LoggerConfig n) (s : LoggerState n) : Prop where
  chain : ∀ m, Chain s.next (s.managers m).loggers (s.managers m).registered
  bound : ∀ m, ∀ l ∈ (s.managers m).registered, l < s.objects.length
  told : config.useDefaultLogger = true → ∀ m, (s.managers m).defaultLogger = none →
    (s.managers m).registered = []

lemma Linked.logMessage (h : s.Linked config) (he : s.Ends) (m : Fin n) (level : PubnubLogLevel) :
    s.logMessage m config level = some (s.toTell m config level) := by
  have hfollow := (h.chain m).follow_eq (length_lt_limit (h.chain m) (h.bound m))
  rw [LoggerState.logMessage, toTell]
  cases huse : config.useDefaultLogger with
  | false =>
      rw [if_neg (by simp), logToLoggers, hfollow]
      rfl
  | true =>
      rw [if_pos rfl]
      cases hd : (s.managers m).defaultLogger with
      | none =>
          rw [h.told huse m hd]
          rfl
      | some logger =>
          dsimp only
          rw [he.default m logger hd, logToLoggers, hfollow, Option.map_some, Option.map_some]
          cases htakes : logger.takes level <;> simp [htakes]

lemma linked_init : (init config).Linked config where
  chain m := rfl
  bound m l hl := by simp [init] at hl
  told _ m _ := rfl

lemma Linked.pubnubLoggerAlloc (h : s.Linked config) (vtable : PubnubLoggerInterface) :
    (s.pubnubLoggerAlloc vtable).Linked config where
  chain m := by
    rw [next_pubnubLoggerAlloc]
    exact h.chain m
  bound m l hl := by
    have := h.bound m l hl
    simp only [LoggerState.pubnubLoggerAlloc, List.length_append, List.length_singleton]
    omega
  told := h.told

/-- The list of one manager is set, the others stay as they are. -/
lemma Linked.set (h : s.Linked config) {t : LoggerState n} {ls : List Nat}
    (hobjects : t.objects.length = s.objects.length) (hmanagers : t.managers = s.managers)
    (hchain : Chain t.next p ls) (hbound : ∀ l ∈ ls, l < s.objects.length)
    (htold : config.useDefaultLogger = true → (s.managers m).defaultLogger = none → ls = [])
    (hothers : ∀ m', m' ≠ m → ∀ l ∈ (s.managers m').registered, t.next l = s.next l) :
    ((t.setLoggers m p).setRegistered m ls).Linked config := by
  refine ⟨fun m' => ?_, fun m' => ?_, fun huse m' => ?_⟩ <;> by_cases hm : m' = m
  · subst hm
    simpa using hchain
  · rw [managers_setRegistered_of_ne hm, managers_setLoggers_of_ne hm, hmanagers]
    exact (h.chain m').congr (hothers m' hm)
  · subst hm
    simpa [hobjects] using hbound
  · rw [managers_setRegistered_of_ne hm, managers_setLoggers_of_ne hm, hmanagers]
    simpa [hobjects] using h.bound m'
  · subst hm
    simpa [hmanagers] using htold huse
  · rw [managers_setRegistered_of_ne hm, managers_setLoggers_of_ne hm, hmanagers]
    exact h.told huse m'

/-- What was registered stays registered. -/
lemma Linked.keep (h : s.Linked config) :
    (s.setRegistered m (s.managers m).registered).Linked config := by
  have hsame : s.setRegistered m (s.managers m).registered = s := by
    simp [setRegistered]
  rwa [hsame]

lemma Linked.loggerAdd (h : s.Linked config) (hl : l < s.objects.length)
    (hc : LoggerClear config s (.loggerAdd m l)) {r : LoggerState n × Int}
    (hr : s.loggerAdd m l = some r) :
    (r.1.setRegistered m (if l ∈ (s.managers m).registered then (s.managers m).registered
      else l :: (s.managers m).registered)).Linked config := by
  by_cases hmem : l ∈ (s.managers m).registered
  · rw [loggerAdd_present (h.chain m) (h.bound m) hmem] at hr
    cases hr
    rw [if_pos hmem]
    exact h.keep
  · rw [loggerAdd_absent (h.chain m) (h.bound m) hmem] at hr
    cases hr
    rw [if_neg hmem]
    obtain ⟨hdefault, hothers⟩ := hc hmem
    refine h.set length_objects_setNext rfl ⟨rfl, ?_⟩ ?_ ?_ ?_
    · rw [next_setNext hl, if_pos rfl]
      refine (h.chain m).congr fun b hb => next_setNext_of_ne hl ?_
      rintro rfl
      exact hmem hb
    · intro b hb
      rcases List.mem_cons.mp hb with rfl | hb
      · exact hl
      · exact h.bound m b hb
    · intro huse hnone
      exact absurd hnone (hdefault huse)
    · intro m' hm b hb
      rw [next_setNext hl]
      split
      · rename_i hbl
        subst hbl
        exact (hothers m' hm hb).symm
      · rfl

lemma Linked.loggerRemove (h : s.Linked config) (hl : l < s.objects.length)
    (hc : LoggerClear config s (.loggerRemove m l)) {r : LoggerState n × Int}
    (hr : s.loggerRemove m l = some r) :
    (r.1.setRegistered m ((s.managers m).registered.erase l)).Linked config := by
  have hchain := h.chain m
  have htold : ∀ {ls : List Nat}, (s.managers m).registered ≠ [] → config.useDefaultLogger = true →
      (s.managers m).defaultLogger = none → ls = [] :=
    fun hne huse hnone => absurd (h.told huse m hnone) hne
  rcases place_cases l (s.managers m).registered with
    hmem | ⟨l₂, hreg⟩ | ⟨l₁, previous, l₂, hreg⟩
  · rw [loggerRemove_absent hchain (h.bound m) hmem] at hr
    cases hr
    rw [List.erase_of_not_mem hmem]
    exact h.keep
  · have hclear := hc (hreg ▸ List.mem_cons_self)
    have hne : (s.managers m).registered ≠ [] := by simp [hreg]
    rw [hreg] at hchain
    rw [loggerRemove_first hchain] at hr
    cases hr
    rw [hreg, List.erase_cons_head]
    refine h.set length_objects_setNext rfl ?_ ?_ (htold hne) ?_
    · refine hchain.2.congr fun b hb => next_setNext_of_ne hl ?_
      rintro rfl
      exact (List.nodup_cons.mp hchain.nodup).1 hb
    · exact fun b hb => h.bound m b (hreg ▸ List.mem_cons_of_mem l hb)
    · intro m' hm b hb
      rw [next_setNext hl]
      split
      · rename_i hbl
        subst hbl
        exact ((hclear m' hm).1 hb).symm
      · rfl
  · have hclear := hc (hreg ▸ by simp)
    have hne : (s.managers m).registered ≠ [] := by simp [hreg]
    have hbound := h.bound m
    rw [hreg] at hchain hbound
    rw [loggerRemove_after hchain hbound] at hr
    cases hr
    have hprevious : previous < s.objects.length := hbound previous (by simp)
    have hnext : ∀ b, ((s.setNext previous (s.next l)).setNext l none).next b =
        if b = l then none else if b = previous then s.next l else s.next b := by
      intro b
      rw [next_setNext (by rwa [length_objects_setNext]), next_setNext hprevious]
    have hdisjoint := List.disjoint_of_nodup_append hchain.nodup
    have hbehind := hchain.drop_append
    obtain ⟨hnot, hnodup⟩ := List.nodup_cons.mp hbehind.nodup
    have hne' : previous ≠ l := fun heq => hnot (heq ▸ List.mem_cons_self)
    have herase : (l₁ ++ previous :: l :: l₂).erase l = l₁ ++ previous :: l₂ := by
      rw [List.erase_append_right _ fun hm =>
          hdisjoint hm (List.mem_cons_of_mem _ List.mem_cons_self),
        List.erase_cons_tail (by simpa using hne'), List.erase_cons_head]
    rw [hreg, herase]
    refine h.set (by simp) rfl ?_ ?_ (htold hne) ?_
    · refine hchain.append (fun b hb => ?_) ⟨rfl, ?_⟩
      · have hbl : b ≠ l := fun heq =>
          hdisjoint hb (heq ▸ List.mem_cons_of_mem _ List.mem_cons_self)
        have hbp : b ≠ previous := fun heq => hdisjoint hb (heq ▸ List.mem_cons_self)
        rw [hnext, if_neg hbl, if_neg hbp]
      · rw [hnext, if_neg hne', if_pos rfl]
        refine hbehind.2.2.congr fun b hb => ?_
        have hbl : b ≠ l := fun heq => (List.nodup_cons.mp hnodup).1 (heq ▸ hb)
        have hbp : b ≠ previous := fun heq => hnot (heq ▸ List.mem_cons_of_mem l hb)
        rw [hnext, if_neg hbl, if_neg hbp]
    · intro b hb
      refine hbound b ?_
      rcases List.mem_append.mp hb with hb | hb
      · exact List.mem_append_left _ hb
      · refine List.mem_append_right _ ?_
        rcases List.mem_cons.mp hb with rfl | hb
        · exact List.mem_cons_self
        · exact List.mem_cons_of_mem _ (List.mem_cons_of_mem l hb)
    · intro m' hm b hb
      obtain ⟨hlast, hfront⟩ := hclear m' hm
      rw [hnext]
      split
      · rename_i hbl
        subst hbl
        exact (hlast hb).symm
      · split
        · rename_i hbp
          subst hbp
          exact absurd hb (hfront b (hreg ▸ by simp) hbehind.2.1)
        · rfl

lemma Linked.step (h : s.Linked config) {call : LoggerCall n} (hc : LoggerClear config s call)
    (hst : loggerStep config s call = some s') : s'.Linked config := by
  cases call with
  | loggerAlloc vtable =>
      cases hst
      exact h.pubnubLoggerAlloc vtable
  | loggerAdd m l =>
      simp only [loggerStep, Option.ite_none_right_eq_some, Option.map_eq_some_iff] at hst
      obtain ⟨hl, r, hr, rfl⟩ := hst
      exact h.loggerAdd hl hc hr
  | loggerRemove m l =>
      simp only [loggerStep, Option.ite_none_right_eq_some, Option.map_eq_some_iff] at hst
      obtain ⟨hl, r, hr, rfl⟩ := hst
      exact h.loggerRemove hl hc hr
  | loggerRemoveAll m =>
      cases hst
      exact h.set rfl rfl Chain.nil (by simp) (fun _ _ => rfl) fun _ _ _ _ => rfl
  | logMessage m level =>
      simp only [loggerStep, Option.map_eq_some_iff] at hst
      obtain ⟨-, -, rfl⟩ := hst
      exact h

/-- A call on one manager is nothing to the others. -/
lemma toTell_step (hbound : ∀ l ∈ (s.managers m).registered, l < s.objects.length)
    {call : LoggerCall n} (hst : loggerStep config s call = some s') (hm : call.manager ≠ some m)
    (level : PubnubLogLevel) : s'.toTell m config level = s.toTell m config level := by
  have hsame : s'.managers m = s.managers m → (∀ l ∈ (s.managers m).registered,
      s'.takes l level = s.takes l level) → s'.toTell m config level = s.toTell m config level := by
    intro hmanager htakes
    rw [toTell, toTell, hmanager, List.filter_congr htakes]
  cases call with
  | loggerAlloc vtable =>
      cases hst
      exact hsame rfl fun l hl => takes_pubnubLoggerAlloc vtable level (hbound l hl)
  | loggerAdd m' l =>
      have hne : m ≠ m' := fun heq => hm (heq ▸ rfl)
      simp only [loggerStep, Option.ite_none_right_eq_some, Option.map_eq_some_iff] at hst
      obtain ⟨hl, r, hr, rfl⟩ := hst
      rw [LoggerState.loggerAdd] at hr
      split at hr <;> cases hr
      · exact hsame (by rw [managers_setRegistered_of_ne hne, managers_setLoggers_of_ne hne]; rfl)
          fun b _ => by simp
      · exact hsame (managers_setRegistered_of_ne hne _) fun b _ => rfl
  | loggerRemove m' l =>
      have hne : m ≠ m' := fun heq => hm (heq ▸ rfl)
      simp only [loggerStep, Option.ite_none_right_eq_some, Option.map_eq_some_iff] at hst
      obtain ⟨hl, r, hr, rfl⟩ := hst
      rw [LoggerState.loggerRemove] at hr
      split at hr <;> cases hr
      · exact hsame (managers_setRegistered_of_ne hne _) fun b _ => rfl
      · exact hsame (by rw [managers_setRegistered_of_ne hne, managers_setLoggers_of_ne hne]; rfl)
          fun b _ => by simp
      · exact hsame (by rw [managers_setRegistered_of_ne hne, managers_setLoggers_of_ne hne]; rfl)
          fun b _ => by simp
  | loggerRemoveAll m' =>
      have hne : m ≠ m' := fun heq => hm (heq ▸ rfl)
      cases hst
      exact hsame (by
        rw [managers_setRegistered_of_ne hne, loggerRemoveAll, managers_setLoggers_of_ne hne])
          fun b _ => rfl
  | logMessage m' level' =>
      simp only [loggerStep, Option.map_eq_some_iff] at hst
      obtain ⟨-, -, rfl⟩ := hst
      rfl

end LoggerState

open LoggerState

/-- **Who is told about a message.**  In every run a message is delivered and the call returns; in a
    clear run it is told to the default logger and to every logger registered with the manager, once
    each, and a call on another manager changes nothing of that. -/
theorem told_as_registered {n : Nat} (config : LoggerConfig n) (s : LoggerState n)
    (hr : (loggerManagers config).Reachable Machine.anyStep s) :
    (∀ m level, (s.logMessage m config level).isSome) ∧
      ((loggerManagers config).Reachable (LoggerClear config) s →
        (∀ m, (s.managers m).registered.Nodup) ∧
        (∀ m level, s.logMessage m config level = some (s.toTell m config level)) ∧
        ∀ call s', LoggerClear config s call → loggerStep config s call = some s' →
          ∀ m level, call.manager ≠ some m →
            s'.logMessage m config level = s.logMessage m config level) := by
  have hends : s.Ends := hr.invariant (P := Ends) ends_init fun _ _ _ h _ hst => h.step hst
  refine ⟨fun m level => hends.logMessage level, fun hclear => ?_⟩
  have hlinked : s.Linked config :=
    hclear.invariant (P := Linked config) linked_init fun _ _ _ h hc hst => h.step hc hst
  refine ⟨fun m => (hlinked.chain m).nodup, fun m level => hlinked.logMessage hends m level, ?_⟩
  intro call s' hc hst m level hm
  rw [(hlinked.step hc hst).logMessage (hends.step hst), hlinked.logMessage hends,
    toTell_step (hlinked.bound m) hst hm level]

/-! ## Two contexts -/

/-- Takes everything. -/
def everything : PubnubLoggerInterface := ⟨true, true, true, true, true⟩

/-- Two contexts with default loggers. -/
def twoContexts : LoggerConfig 2 := ⟨true, fun _ => some everything⟩

/-- Both contexts have the same last logger, one of them has a second. -/
theorem told_as_registered_shared : ∃ s : LoggerState 2,
    (s.managers 0).registered = [1, 0] ∧ (s.managers 1).registered = [0] ∧
    s.logMessage 0 twoContexts .info = some [.defaultLogger, .logger 1, .logger 0] := by
  obtain ⟨s, hr, hs⟩ := (loggerManagers twoContexts).exists_reachable_of_replay
    (G := LoggerClear twoContexts) (fun s a => decide (LoggerClear twoContexts s a))
    [.loggerAlloc everything, .loggerAlloc everything, .loggerAdd 0 0, .loggerAdd 1 0,
      .loggerAdd 0 1]
    (fun s => (s.managers 0).registered == [1, 0] && (s.managers 1).registered == [0] &&
      s.toTell 0 twoContexts .info == [.defaultLogger, .logger 1, .logger 0])
    (fun _ _ => of_decide_eq_true) (by decide +kernel)
  simp only [Bool.and_eq_true, beq_iff_eq] at hs
  obtain ⟨-, hclear⟩ := told_as_registered twoContexts s (hr.mono fun _ _ _ => trivial)
  refine ⟨s, hs.1.1, hs.1.2, ?_⟩
  rw [(hclear hr).2.1, hs.2]

/-- **A message is told to a logger of another context.**  A logger that ends the list of one
    context is registered with a second one as well, which has a logger already. -/
theorem not_always_told_as_registered : ∃ s,
    (loggerManagers twoContexts).Reachable Machine.anyStep s ∧
    (s.managers 0).registered = [1, 0] ∧ (s.managers 1).registered = [0, 2] ∧
    s.logMessage 0 twoContexts .info =
      some [.defaultLogger, .logger 1, .logger 0, .logger 2] := by
  obtain ⟨s, hr, hs⟩ := (loggerManagers twoContexts).exists_reachable_of_replay
    (G := Machine.anyStep) (fun _ _ => true)
    [.loggerAlloc everything, .loggerAlloc everything, .loggerAlloc everything, .loggerAdd 0 0,
      .loggerAdd 0 1, .loggerAdd 1 2, .loggerAdd 1 0]
    (fun s => (s.managers 0).registered == [1, 0] && (s.managers 1).registered == [0, 2] &&
      s.logMessage 0 twoContexts .info ==
        some [.defaultLogger, .logger 1, .logger 0, .logger 2])
    (fun _ _ _ => trivial) (by decide +kernel)
  simp only [Bool.and_eq_true, beq_iff_eq] at hs
  exact ⟨s, hr, hs.1.1, hs.1.2, hs.2⟩

end PubNub
