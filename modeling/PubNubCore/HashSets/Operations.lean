import Mathlib.Logic.Function.Basic
import PubNubCore.HashSets.PbhashSet

/-!
# The operations of hash sets

`Sound` is what the functions keep of all sets together: each of them is a table, the counters count the
nodes that share them, and no node refers to something that has been destroyed.  What is destroyed must
not be referred to by another node, one that does not share the counter: this is `Releasable`.

There is one lemma for `pbhash_set_add`, one for a copy of a node, one for `pbhash_set_remove`, and one for
each of the loops over another set.
-/

namespace PubNub

/-! ## Maps -/

/-- The value and the containing object that a list of nodes has for a key. -/
def pairOf (text : Nat → Bytes) (contentType : HashContentType) (nodes : List PbhashNode)
    (k : HashKey) : Option (Nat × Nat) :=
  (nodes.find? fun node => decide (hashKey text contentType node.value = k)).map
    fun node => (node.value, node.containing)

/-- The map that a set is. -/
def PbhashSetT.map (text : Nat → Bytes) (set : PbhashSetT) : HashKey → Option (Nat × Nat) :=
  pairOf text set.contentType set.nodes

section Maps

variable {text : Nat → Bytes} {contentType : HashContentType} {nodes : List PbhashNode}
  {node : PbhashNode} {k : HashKey} {set : PbhashSetT} {t : ChainedHash keyHash PbhashNode}
  {value : Nat}

lemma pairOf_cons : pairOf text contentType (node :: nodes) k =
    if hashKey text contentType node.value = k then some (node.value, node.containing)
    else pairOf text contentType nodes k := by
  rw [pairOf, pairOf]
  by_cases hk : hashKey text contentType node.value = k
  · have hfind : List.find? (fun node => decide (hashKey text contentType node.value = k))
        (node :: nodes) = some node := List.find?_cons_of_pos (decide_eq_true hk)
    rw [hfind, if_pos hk]
    rfl
  · have hfind : List.find? (fun node => decide (hashKey text contentType node.value = k))
        (node :: nodes) = nodes.find? fun node => decide (hashKey text contentType node.value = k) :=
      List.find?_cons_of_neg (by simpa using hk)
    rw [hfind, if_neg hk]

namespace PbhashSetT.Represents

lemma map_eq (h : set.Represents text t) (k : HashKey) :
    set.map text k = (t.find? k).map fun node => (node.value, node.containing) := by
  rw [PbhashSetT.map, pairOf, ← PbhashSetT.lookup_map_entry, ← h.entries_eq,
    ChainedHash.lookup_entries]

/-- What a table finds is a node of the set with that key. -/
lemma mem_of_find? (h : set.Represents text t) (hfind : t.find? k = some node) :
    node ∈ set.nodes ∧ hashKey text set.contentType node.value = k := by
  have hmem := ChainedHash.mem_entries.mpr hfind
  rw [h.entries_eq] at hmem
  obtain ⟨n, hn, heq⟩ := List.mem_map.mp hmem
  cases heq
  exact ⟨hn, rfl⟩

/-- A node of the set is found under its key. -/
lemma find?_eq (h : set.Represents text t) (hnode : node ∈ set.nodes) :
    t.find? (hashKey text set.contentType node.value) = some node := by
  refine ChainedHash.mem_entries.mp ?_
  rw [h.entries_eq]
  exact List.mem_map_of_mem (f := PbhashSetT.entry text set.contentType) hnode

lemma map_addNode (h : set.Represents text t)
    (hnew : t.find? (hashKey text set.contentType node.value) = none) :
    (set.addNode text node).map text = Function.update (set.map text)
      (hashKey text set.contentType node.value) (some (node.value, node.containing)) := by
  funext k
  rw [(h.addNode hnew).1.map_eq, ChainedHash.find?_insertNew (h.hash_lt _), Function.update_apply]
  by_cases hk : k = hashKey text set.contentType node.value
  · rw [if_pos hk, if_pos hk, hk, hnew]
    rfl
  · rw [if_neg hk, if_neg hk, Option.or_none, ← h.map_eq]

lemma map_unlink (h : set.Represents text t)
    (hfound : t.find? (hashKey text set.contentType value) = some node) :
    (set.unlink text value).map text =
      Function.update (set.map text) (hashKey text set.contentType value) none := by
  funext k
  rw [(h.unlink hfound).1.map_eq, ChainedHash.find?_erase (h.hash_lt _), Function.update_apply]
  by_cases hk : k = hashKey text set.contentType value
  · rw [if_pos hk, if_pos hk]
    rfl
  · rw [if_neg hk, if_neg hk, ← h.map_eq]

end PbhashSetT.Represents

end Maps

/-! ## Lists of sets -/

lemma set_of_getElem? {A : Type} {l : List A} {i : Nat} {a : A} (h : l[i]? = some a) :
    l.set i a = l := by
  obtain ⟨hlt, rfl⟩ := List.getElem?_eq_some_iff.mp h
  exact List.set_getElem_self hlt

/-- One of the lists is replaced by one with an entry more. -/
lemma perm_flatMap_set {A B : Type} {f : A → List B} {a a' : A} {x : B} :
    ∀ {l : List A} {i : Nat}, l[i]? = some a → (f a').Perm (x :: f a) →
      ((l.set i a').flatMap f).Perm (x :: l.flatMap f)
  | [], _, h, _ => by cases h
  | b :: l, 0, h, hperm => by
      cases h
      exact hperm.append_right _
  | b :: l, i + 1, h, hperm => by
      rw [List.set_cons_succ, List.flatMap_cons, List.flatMap_cons]
      exact ((perm_flatMap_set (i := i) h hperm).append_left _).trans List.perm_middle

/-- One of the lists is replaced by one with an entry less. -/
lemma perm_of_flatMap_set {A B : Type} {f : A → List B} {a a' : A} {x : B} {l : List A} {i : Nat}
    (h : l[i]? = some a) (hperm : (f a).Perm (x :: f a')) :
    (l.flatMap f).Perm (x :: (l.set i a').flatMap f) := by
  obtain ⟨hlt, -⟩ := List.getElem?_eq_some_iff.mp h
  have hget : (l.set i a')[i]? = some a' := List.getElem?_set_self hlt
  have hback := perm_flatMap_set hget hperm
  rwa [List.set_set, set_of_getElem? h] at hback

namespace HashWorld

/-! ## What is kept -/

structure Sound (text : Nat → Bytes) (w : HashWorld) : Prop where
  represents : ∀ set ∈ w.sets, ∃ t, set.Represents text t
  length_lt : ∀ set ∈ w.sets, set.buckets.length < 2 ^ 31
  exact : ExactCounts w.counters (w.nodes.map PbhashNode.counter)
  same : ∀ n ∈ w.nodes, ∀ n' ∈ w.nodes, n.counter = n'.counter → n = n'
  alive : ∀ n ∈ w.nodes, n.value ∉ w.destroyed ∧ n.containing ∉ w.destroyed
  value_ne : ∀ n ∈ w.nodes, n.value ≠ 0

/-- A node can be taken out: it is not destroyed, or no other node refers to what is destroyed. -/
def Releasable (w : HashWorld) (set : PbhashSetT) (node : PbhashNode) : Prop :=
  set.free = false ∨ 1 < w.counters.getD node.counter 0 ∨
    ∀ n ∈ w.nodes, n.counter ≠ node.counter → node.element ≠ n.value ∧ node.element ≠ n.containing

variable {text : Nat → Bytes} {w : HashWorld} {set : PbhashSetT} {node : PbhashNode} {i : Nat}

namespace Sound

lemma mem_nodes (hi : w.sets[i]? = some set) {n : PbhashNode} (hn : n ∈ set.nodes) : n ∈ w.nodes :=
  List.mem_flatMap.mpr ⟨set, List.mem_of_getElem? hi, hn⟩

/-- One node more in one of the sets. -/
lemma putNode (hw : Sound text w) (hi : w.sets[i]? = some set) {t : ChainedHash keyHash PbhashNode}
    (ht : set.Represents text t)
    (hnew : t.find? (hashKey text set.contentType node.value) = none) {counters : List Nat}
    (hexact : ExactCounts counters (node.counter :: w.nodes.map PbhashNode.counter))
    (hsame : ∀ n ∈ w.nodes, n.counter = node.counter → n = node)
    (halive : node.value ∉ w.destroyed ∧ node.containing ∉ w.destroyed) (hvalue : node.value ≠ 0) :
    Sound text { w with sets := w.sets.set i (set.addNode text node), counters := counters } := by
  obtain ⟨hrepresents, hperm⟩ := ht.addNode hnew
  have hnodes : ((w.sets.set i (set.addNode text node)).flatMap PbhashSetT.nodes).Perm
      (node :: w.nodes) := perm_flatMap_set hi hperm
  have hmem : ∀ n ∈ (w.sets.set i (set.addNode text node)).flatMap PbhashSetT.nodes,
      n = node ∨ n ∈ w.nodes := fun n hn => List.mem_cons.mp (hnodes.mem_iff.mp hn)
  refine ⟨fun s hs => ?_, fun s hs => ?_, hexact.perm ?_, fun n hn n' hn' hcounter => ?_,
    fun n hn => ?_, fun n hn => ?_⟩
  · rcases List.mem_or_eq_of_mem_set hs with hs | rfl
    · exact hw.represents s hs
    · exact ⟨_, hrepresents⟩
  · rcases List.mem_or_eq_of_mem_set hs with hs | rfl
    · exact hw.length_lt s hs
    · rw [PbhashSetT.addNode, List.length_modify]
      exact hw.length_lt set (List.mem_of_getElem? hi)
  · exact (hnodes.map PbhashNode.counter).symm
  · rcases hmem n hn with rfl | hold
    · rcases hmem n' hn' with rfl | hold'
      · rfl
      · exact (hsame n' hold' hcounter.symm).symm
    · rcases hmem n' hn' with rfl | hold'
      · exact hsame n hold hcounter
      · exact hw.same n hold n' hold' hcounter
  · rcases hmem n hn with rfl | hold
    · exact halive
    · exact hw.alive n hold
  · rcases hmem n hn with rfl | hold
    · exact hvalue
    · exact hw.value_ne n hold

/-! ## Adding -/

end Sound

/-- What `pbhash_set_add` does to a set. -/
def Added (text : Nat → Bytes) (set : PbhashSetT) (element containing : Nat) (rslt : PbhashSetRes)
    (set' : PbhashSetT) : Prop :=
  (set.map text (hashKey text set.contentType element) = none ∧ rslt = .ok ∧
      set'.contentType = set.contentType ∧
      set'.map text = Function.update (set.map text) (hashKey text set.contentType element)
        (some (element, containing))) ∨
    (set.map text (hashKey text set.contentType element) = none ∧ rslt = .outOfMemory ∧ set' = set) ∨
    ∃ value c, set.map text (hashKey text set.contentType element) = some (value, c) ∧
      rslt = (if value = element then .exactMatchExists else .valueExists) ∧ set' = set

namespace Sound

lemma add (hw : Sound text w) (hi : w.sets[i]? = some set) (memory : Bool) {element containing : Nat}
    (halive : element ∉ w.destroyed ∧ containing ∉ w.destroyed) (hne : element ≠ 0) :
    ∃ rslt w' set', w.add text memory i element containing = some (rslt, w') ∧ Sound text w' ∧
      w'.sets = w.sets.set i set' ∧ (∀ n ∈ w.nodes, n ∈ w'.nodes) ∧ w'.destroyed = w.destroyed ∧
      Added text set element containing rslt set' := by
  obtain ⟨t, ht⟩ := hw.represents set (List.mem_of_getElem? hi)
  have hread : ¬ (set.contentType = .char ∧ element = 0) := fun hnull => hne hnull.2
  have hlookup := ht.lookup_eq hread
  have hself := set_of_getElem? hi
  rw [HashWorld.add, hi]
  simp only [Option.bind_eq_bind, Option.bind_some, hlookup]
  cases hfind : t.find? (hashKey text set.contentType element) with
  | some node =>
      refine ⟨_, w, set, rfl, hw, hself.symm, fun _ hn => hn, rfl, .inr (.inr ⟨node.value,
        node.containing, ?_, rfl, rfl⟩)⟩
      rw [ht.map_eq, hfind]
      rfl
  | none =>
      have hnone : set.map text (hashKey text set.contentType element) = none := by
        rw [ht.map_eq, hfind]
        rfl
      cases memory with
      | false =>
          exact ⟨_, w, set, rfl, hw, hself.symm, fun _ hn => hn, rfl, .inr (.inl ⟨hnone, rfl, rfl⟩)⟩
      | true =>
          have hfresh : ∀ n ∈ w.nodes, n.counter ≠ w.counters.length := fun n hn heq => by
            have hlt := hw.exact.bound n.counter (List.mem_map_of_mem hn)
            omega
          let node : PbhashNode := ⟨element, containing, w.counters.length⟩
          have hnew : t.find? (hashKey text set.contentType node.value) = none := hfind
          have hsame : ∀ n ∈ w.nodes, n.counter = node.counter → n = node :=
            fun n hn heq => absurd heq (hfresh n hn)
          have hsound := hw.putNode hi ht hnew hw.exact.alloc hsame halive hne
          refine ⟨_, _, _, rfl, hsound, rfl, fun n hn => ?_, rfl,
            .inl ⟨hnone, rfl, rfl, ht.map_addNode hnew⟩⟩
          have hperm := perm_flatMap_set hi (ht.addNode hnew).2
          exact hperm.mem_iff.mpr (List.mem_cons_of_mem _ hn)

/-- A copy of a node of some set. -/
lemma clone (hw : Sound text w) (hi : w.sets[i]? = some set) {t : ChainedHash keyHash PbhashNode}
    (ht : set.Represents text t)
    (hnew : t.find? (hashKey text set.contentType node.value) = none) (hnode : node ∈ w.nodes) :
    Sound text (w.clone text true i set node).2 ∧
      ∀ n ∈ w.nodes, n ∈ (w.clone text true i set node).2.nodes := by
  have hshare := hw.exact.share (hw.exact.bound node.counter (List.mem_map_of_mem hnode))
  refine ⟨hw.putNode hi ht hnew hshare (fun n hn heq => hw.same n hn node hnode heq)
    (hw.alive node hnode) (hw.value_ne node hnode), fun n hn => ?_⟩
  exact (perm_flatMap_set hi (ht.addNode hnew).2).mem_iff.mpr (List.mem_cons_of_mem _ hn)

end Sound

/-! ## Removing -/

/-- What `pbhash_set_remove` does to a set. -/
def Removed (text : Nat → Bytes) (set : PbhashSetT) (element : Nat) (rslt : PbhashSetRes)
    (set' : PbhashSetT) : Prop :=
  (element ≠ 0 ∧ (set.map text (hashKey text set.contentType element)).isSome = true ∧ rslt = .ok ∧
      set'.contentType = set.contentType ∧
      set'.map text = Function.update (set.map text) (hashKey text set.contentType element) none) ∨
    (element ≠ 0 → set.map text (hashKey text set.contentType element) = none) ∧
      rslt = .notFound ∧ set' = set

namespace Sound

/-- A node less in one of the sets. -/
lemma unlink (hw : Sound text w) (hi : w.sets[i]? = some set) {t : ChainedHash keyHash PbhashNode}
    {value : Nat} (ht : set.Represents text t)
    (hfound : t.find? (hashKey text set.contentType value) = some node)
    {destroyed : List Nat}
    (hdestroyed : destroyed = w.destroyed ∨ destroyed = node.element :: w.destroyed ∧
      w.counters.getD node.counter 0 ≤ 1 ∧
      ∀ n ∈ w.nodes, n.counter ≠ node.counter → node.element ≠ n.value ∧ node.element ≠ n.containing) :
    Sound text { sets := w.sets.set i (set.unlink text value)
                 counters := w.counters.modify node.counter (· - 1), destroyed := destroyed } := by
  obtain ⟨hrepresents, hperm⟩ := ht.unlink hfound
  have hnodes : w.nodes.Perm
      (node :: (w.sets.set i (set.unlink text value)).flatMap PbhashSetT.nodes) :=
    perm_of_flatMap_set hi hperm
  have hmem : ∀ n ∈ (w.sets.set i (set.unlink text value)).flatMap PbhashSetT.nodes, n ∈ w.nodes :=
    fun n hn => hnodes.mem_iff.mpr (List.mem_cons_of_mem _ hn)
  have hexact := hw.exact.perm (hnodes.map PbhashNode.counter)
  refine ⟨fun s hs => ?_, fun s hs => ?_, hexact.release,
    fun n hn n' hn' => hw.same n (hmem n hn) n' (hmem n' hn'), fun n hn => ?_,
    fun n hn => hw.value_ne n (hmem n hn)⟩
  · rcases List.mem_or_eq_of_mem_set hs with hs | rfl
    · exact hw.represents s hs
    · exact ⟨_, hrepresents⟩
  · rcases List.mem_or_eq_of_mem_set hs with hs | rfl
    · exact hw.length_lt s hs
    · rw [PbhashSetT.unlink, List.length_modify]
      exact hw.length_lt set (List.mem_of_getElem? hi)
  · obtain ⟨hvalue, hcontaining⟩ := hw.alive n (hmem n hn)
    rcases hdestroyed with rfl | ⟨rfl, hlast, hother⟩
    · exact ⟨hvalue, hcontaining⟩
    -- the counter was that of no other node
    · have hne : n.counter ≠ node.counter := by
        intro heq
        have hlt := hexact.bound node.counter List.mem_cons_self
        have hcount := hexact.count node.counter _ (List.getElem?_eq_getElem hlt)
        rw [List.getD_eq_getElem?_getD, List.getElem?_eq_getElem hlt, Option.getD_some, hcount,
          List.map_cons, List.count_cons_self] at hlast
        have hin : node.counter ∈ ((w.sets.set i (set.unlink text value)).flatMap
            PbhashSetT.nodes).map PbhashNode.counter := heq ▸ List.mem_map_of_mem hn
        have hpos := List.count_pos_iff.mpr hin
        omega
      obtain ⟨hv, hc⟩ := hother n (hmem n hn) hne
      exact ⟨List.not_mem_cons_of_ne_of_not_mem hv.symm hvalue,
        List.not_mem_cons_of_ne_of_not_mem hc.symm hcontaining⟩

/-- Removing, and what is known of a node that has been taken out. -/
lemma remove (hw : Sound text w) (hi : w.sets[i]? = some set) {element : Nat}
    (hfits : element ≠ 0 → ∀ node ∈ set.nodes,
      hashKey text set.contentType node.value = hashKey text set.contentType element →
        w.Releasable set node) :
    ∃ rslt removed w' set', w.remove text i element = some (rslt, removed, w') ∧ Sound text w' ∧
      w'.sets = w.sets.set i set' ∧ Removed text set element rslt set' ∧
      (w' = w ∧ removed = false ∨ ∃ node ∈ set.nodes,
        hashKey text set.contentType node.value = hashKey text set.contentType element ∧
        removed = (set.free && w.counters.getD node.counter 0 - 1 == 0) ∧ set'.free = set.free ∧
        w'.counters = w.counters.modify node.counter (· - 1) ∧
        set.nodes.Perm (node :: set'.nodes) ∧ w.nodes.Perm (node :: w'.nodes)) := by
  obtain ⟨t, ht⟩ := hw.represents set (List.mem_of_getElem? hi)
  have hself := set_of_getElem? hi
  have hmap := ht.map_eq (hashKey text set.contentType element)
  rw [HashWorld.remove, hi]
  simp only [Option.bind_eq_bind, Option.bind_some]
  by_cases hempty : element = 0 ∨ set.elementsCount = 0
  · rw [if_pos hempty]
    refine ⟨_, _, w, set, rfl, hw, hself.symm, .inr ⟨fun hne => ?_, rfl, rfl⟩, .inl ⟨rfl, rfl⟩⟩
    have hnil : set.nodes = [] := by
      rw [← List.length_eq_zero_iff, ← ht.count_eq]
      exact hempty.resolve_left hne
    rw [PbhashSetT.map, hnil]
    rfl
  · rw [if_neg hempty]
    rw [not_or] at hempty
    rw [ht.lookup_eq fun hnull => hempty.1 hnull.2]
    cases hfind : t.find? (hashKey text set.contentType element) with
    | none =>
        rw [hfind] at hmap
        exact ⟨_, _, w, set, rfl, hw, hself.symm, .inr ⟨fun _ => hmap, rfl, rfl⟩, .inl ⟨rfl, rfl⟩⟩
    | some node =>
        obtain ⟨hnode, hkey⟩ := ht.mem_of_find? hfind
        have hperm := (ht.unlink hfind).2
        rw [hfind] at hmap
        refine ⟨_, _, _, set.unlink text element, rfl, hw.unlink hi ht hfind ?_, rfl,
          .inl ⟨hempty.1, by rw [hmap]; rfl, rfl, rfl, ht.map_unlink hfind⟩, .inr ⟨node, hnode, hkey,
            rfl, rfl, rfl, hperm, perm_of_flatMap_set hi hperm⟩⟩
        split
        · rename_i hremoved
          rw [Bool.and_eq_true, beq_iff_eq] at hremoved
          rcases hfits hempty.1 node hnode hkey with hfree | hmany | hother
          · rw [hfree] at hremoved
            cases hremoved.1
          · omega
          · exact .inr ⟨rfl, by omega, hother⟩
        · exact .inl rfl

end Sound

/-! ## The nodes of another set -/

/-- What is taken for granted of nodes that are subtracted: each node they take out can be, and the
    pointer that is set to `NULL` where it is destroyed was `NULL`. -/
def SubtractFits (text : Nat → Bytes) (w : HashWorld) (set : PbhashSetT) (nodes : List PbhashNode) :
    Prop :=
  ∀ node ∈ set.nodes, ∀ n ∈ nodes,
    hashKey text set.contentType node.value = hashKey text set.contentType n.value →
      w.Releasable set node ∧
        (set.free = false ∨ 1 < w.counters.getD node.counter 0 ∨ n.containing = 0)

lemma nullify_eq (w : HashWorld) (j : Nat) (h : node.containing = 0) : w.nullify j node = w := by
  have hsame : (fun n : PbhashNode => if n = node then { n with containing := 0 } else n) = id := by
    funext n
    split
    · rename_i heq
      subst heq
      rw [← h]
      rfl
    · rfl
  have hset : (fun set : PbhashSetT => { set with buckets := set.buckets.map (List.map fun n =>
      if n = node then { n with containing := 0 } else n) }) = id := by
    funext set
    rw [hsame, List.map_id_fun, List.map_id_fun]
    rfl
  rw [nullify, hset, List.modify_id]

lemma getD_modify_of_ne {counters : List Nat} {c c' : Nat} (f : Nat → Nat) (h : c ≠ c') :
    (counters.modify c f).getD c' 0 = counters.getD c' 0 := by
  rw [List.getD_eq_getElem?_getD, List.getElem?_modify, List.getD_eq_getElem?_getD]
  cases counters[c']? with
  | none => rfl
  | some n =>
      change (if c = c' then f n else n) = n
      rw [if_neg h]

lemma Removed.contentType_eq {element : Nat} {rslt : PbhashSetRes} {set' : PbhashSetT}
    (h : Removed text set element rslt set') : set'.contentType = set.contentType := by
  rcases h with ⟨-, -, -, htype, -⟩ | ⟨-, -, rfl⟩
  · exact htype
  · rfl

namespace Sound

lemma nodup_nodes {t : ChainedHash keyHash PbhashNode} (ht : set.Represents text t) :
    set.nodes.Nodup := by
  have hkeys := t.nodup_keys
  rw [ht.entries_eq, List.map_map] at hkeys
  exact hkeys.of_map _

/-- What can be subtracted still can be when a node has been taken out. -/
lemma subtractFits_of_perm (hw : Sound text w) (hi : w.sets[i]? = some set) {w' : HashWorld}
    {set' : PbhashSetT} {nodes : List PbhashNode} (hfits : SubtractFits text w set nodes)
    (hnode : node ∈ set.nodes) (htype : set'.contentType = set.contentType)
    (hfree : set'.free = set.free) (hcounters : w'.counters = w.counters.modify node.counter (· - 1))
    (hperm : set.nodes.Perm (node :: set'.nodes)) (hnodes : w.nodes.Perm (node :: w'.nodes)) :
    SubtractFits text w' set' nodes := by
  obtain ⟨t, ht⟩ := hw.represents set (List.mem_of_getElem? hi)
  intro n' hn' n hn hkey
  rw [htype] at hkey
  have hold : n' ∈ set.nodes := hperm.mem_iff.mpr (List.mem_cons_of_mem _ hn')
  have hne : node.counter ≠ n'.counter := by
    intro heq
    have hsame := hw.same node (mem_nodes hi hnode) n' (mem_nodes hi hold) heq
    have hnodup := hperm.nodup_iff.mp (nodup_nodes ht)
    exact (List.nodup_cons.mp hnodup).1 (hsame ▸ hn')
  have hcounter : w'.counters.getD n'.counter 0 = w.counters.getD n'.counter 0 := by
    rw [hcounters, getD_modify_of_ne _ hne]
  obtain ⟨hrelease, hnull⟩ := hfits n' hold n hn hkey
  rw [Releasable, hfree, hcounter]
  refine ⟨?_, hnull⟩
  rcases hrelease with hfalse | hmany | hother
  · exact .inl hfalse
  · exact .inr (.inl hmany)
  · exact .inr (.inr fun m hm => hother m (hnodes.mem_iff.mpr (List.mem_cons_of_mem _ hm)))

/-- **Subtracting.**  The other set is not changed, and its keys are no longer in the set. -/
lemma subtractLoop {j : Nat} (hij : i ≠ j) (rslt : PbhashSetRes) {nodes : List PbhashNode}
    (hw : Sound text w) (hi : w.sets[i]? = some set) (hfits : SubtractFits text w set nodes)
    (hvalue : ∀ n ∈ nodes, n.value ≠ 0) :
    ∃ rslt' w' set', HashWorld.subtractLoop text i j nodes rslt w = some (rslt', w') ∧
      Sound text w' ∧ w'.sets = w.sets.set i set' ∧ set'.contentType = set.contentType ∧
      ∀ k, set'.map text k =
        if (pairOf text set.contentType nodes k).isSome then none else set.map text k := by
  induction nodes generalizing w set rslt with
  | nil => exact ⟨rslt, w, set, rfl, hw, (set_of_getElem? hi).symm, rfl, fun _ => rfl⟩
  | cons n nodes ih =>
      have hfirst : ∀ node ∈ set.nodes, hashKey text set.contentType node.value =
          hashKey text set.contentType n.value → w.Releasable set node :=
        fun node hnode hkey => (hfits node hnode n List.mem_cons_self hkey).1
      obtain ⟨rslt₁, removed, w₁, set₁, hremove, hw₁, hsets₁, hremoved, hcases⟩ :=
        hw.remove hi fun _ => hfirst
      have htype := hremoved.contentType_eq
      have hi₁ : w₁.sets[i]? = some set₁ := by
        rw [hsets₁]
        exact List.getElem?_set_self (List.getElem?_eq_some_iff.mp hi).1
      have hrest : SubtractFits text w set nodes :=
        fun node hnode n hn => hfits node hnode n (List.mem_cons_of_mem _ hn)
      have hfits₁ : SubtractFits text w₁ set₁ nodes ∧ (removed = true → n.containing = 0) := by
        rcases hcases with ⟨rfl, rfl⟩ | ⟨node, hnode, hkey, rfl, hfree, hcounters, hperm, hnodes⟩
        · rw [hi] at hi₁
          cases hi₁
          exact ⟨hrest, fun hfalse => absurd hfalse Bool.false_ne_true⟩
        · refine ⟨hw.subtractFits_of_perm hi hrest hnode htype hfree hcounters hperm hnodes,
            fun hlast => ?_⟩
          rw [Bool.and_eq_true, beq_iff_eq] at hlast
          rcases (hfits node hnode n List.mem_cons_self hkey).2 with hfalse | hmany | hnull
          · rw [hfalse] at hlast
            cases hlast.1
          · omega
          · exact hnull
      obtain ⟨rslt', w', set', hloop, hw', hsets', htype', hmap⟩ := ih rslt₁ hw₁ hi₁ hfits₁.1
        fun m hm => hvalue m (List.mem_cons_of_mem _ hm)
      refine ⟨rslt', w', set', ?_, hw', ?_, htype'.trans htype, fun k => ?_⟩
      · rw [HashWorld.subtractLoop, hremove]
        simp only [Option.bind_eq_bind, Option.bind_some]
        by_cases hlast : removed = true
        · rw [if_pos hlast, if_neg hij, nullify_eq _ _ (hfits₁.2 hlast)]
          exact hloop
        · rw [if_neg hlast]
          exact hloop
      · rw [hsets', hsets₁, List.set_set]
      · rw [hmap, htype, pairOf_cons]
        rcases hremoved with ⟨-, -, -, -, hupdate⟩ | ⟨hnone, -, rfl⟩
        · rw [hupdate, Function.update_apply]
          by_cases hk : k = hashKey text set.contentType n.value
          · rw [if_pos hk, if_pos hk.symm, Option.isSome_some, if_pos rfl, ite_self]
          · rw [if_neg hk, if_neg (Ne.symm hk)]
        · by_cases hk : k = hashKey text set₁.contentType n.value
          · rw [if_pos hk.symm, Option.isSome_some, if_pos rfl, hk,
              hnone (hvalue n List.mem_cons_self), ite_self]
          · rw [if_neg (Ne.symm hk)]

end Sound

lemma unionLoop_outOfMemory (memory : PbhashNode → Bool) (duplicates : Option Nat)
    (nodes : List PbhashNode) (w : HashWorld) :
    unionLoop text memory i duplicates nodes .outOfMemory w = some (.outOfMemory, w) := by
  cases nodes with
  | nil => rfl
  | cons n nodes => rw [unionLoop, if_pos rfl]

/-- What has become of a set to which nodes were to be added. -/
def United (text : Nat → Bytes) (set : PbhashSetT) (nodes : List PbhashNode) (rslt : PbhashSetRes)
    (set' : PbhashSetT) : Prop :=
  set'.contentType = set.contentType ∧
    (rslt = .ok ∧ (∀ k, set'.map text k = (set.map text k).or (pairOf text set.contentType nodes k)) ∨
      rslt = .outOfMemory ∧ ∀ k, set'.map text k = set.map text k ∨
        set.map text k = none ∧ set'.map text k = pairOf text set.contentType nodes k)

/-- The first of the nodes has been there already. -/
lemma United.cons_of_isSome {n : PbhashNode} {nodes : List PbhashNode} {rslt : PbhashSetRes}
    {set' : PbhashSetT} (h : United text set nodes rslt set')
    (hthere : (set.map text (hashKey text set.contentType n.value)).isSome = true) :
    United text set (n :: nodes) rslt set' := by
  obtain ⟨htype, hcases⟩ := h
  refine ⟨htype, ?_⟩
  rcases hcases with ⟨hok, hmap⟩ | ⟨hfull, hmap⟩
  · refine .inl ⟨hok, fun k => ?_⟩
    rw [hmap, pairOf_cons]
    by_cases hk : hashKey text set.contentType n.value = k
    · obtain ⟨pair, hpair⟩ := Option.isSome_iff_exists.mp hthere
      rw [if_pos hk, ← hk, hpair, Option.some_or, Option.some_or]
    · rw [if_neg hk]
  · refine .inr ⟨hfull, fun k => ?_⟩
    rcases hmap k with hsame | ⟨hnone, hnew⟩
    · exact .inl hsame
    · rw [pairOf_cons]
      by_cases hk : hashKey text set.contentType n.value = k
      · rw [hk, hnone] at hthere
        cases hthere
      · rw [if_neg hk]
        exact .inr ⟨hnone, hnew⟩

/-- The first of the nodes has been added. -/
lemma United.cons_of_update {n : PbhashNode} {nodes : List PbhashNode} {rslt : PbhashSetRes}
    {set₁ set' : PbhashSetT} (h : United text set₁ nodes rslt set')
    (htype : set₁.contentType = set.contentType)
    (hnone : set.map text (hashKey text set.contentType n.value) = none)
    (hupdate : set₁.map text = Function.update (set.map text)
      (hashKey text set.contentType n.value) (some (n.value, n.containing))) :
    United text set (n :: nodes) rslt set' := by
  obtain ⟨htype', hcases⟩ := h
  rw [htype, hupdate] at hcases
  refine ⟨htype'.trans htype, ?_⟩
  rcases hcases with ⟨hok, hmap⟩ | ⟨hfull, hmap⟩
  · refine .inl ⟨hok, fun k => ?_⟩
    rw [hmap, pairOf_cons, Function.update_apply]
    by_cases hk : k = hashKey text set.contentType n.value
    · rw [if_pos hk, if_pos hk.symm, hk, hnone, Option.some_or, Option.none_or]
    · rw [if_neg hk, if_neg (Ne.symm hk)]
  · refine .inr ⟨hfull, fun k => ?_⟩
    have hk' := hmap k
    rw [Function.update_apply] at hk'
    rw [pairOf_cons]
    by_cases hk : k = hashKey text set.contentType n.value
    · rw [if_pos hk] at hk'
      rw [if_pos hk.symm]
      exact .inr ⟨hk ▸ hnone, hk'.resolve_right fun hboth => by cases hboth.1⟩
    · rw [if_neg hk] at hk'
      rw [if_neg (Ne.symm hk)]
      exact hk'

namespace Sound

/-- **Uniting.**  Only the set itself and the one for duplicates are changed. -/
lemma unionLoop (memory : PbhashNode → Bool) {duplicates : Option Nat} {rslt : PbhashSetRes}
    (hrslt : rslt = .ok ∨ rslt = .outOfMemory) {nodes : List PbhashNode} (hw : Sound text w)
    (hi : w.sets[i]? = some set) (hd : ∀ d ∈ duplicates, d ≠ i ∧ d < w.sets.length)
    (hnodes : ∀ n ∈ nodes, n ∈ w.nodes) :
    ∃ rslt' w' set', HashWorld.unionLoop text memory i duplicates nodes rslt w = some (rslt', w') ∧
      Sound text w' ∧ w'.sets[i]? = some set' ∧ w'.sets.length = w.sets.length ∧
      (∀ k ≠ i, k ∉ duplicates → w'.sets[k]? = w.sets[k]?) ∧
      (rslt = .ok → United text set nodes rslt' set') := by
  induction nodes generalizing w set rslt with
  | nil =>
      refine ⟨rslt, w, set, rfl, hw, hi, rfl, fun _ _ _ => rfl, fun hok => ⟨rfl, .inl ⟨hok, fun k => ?_⟩⟩⟩
      exact (Option.or_none).symm
  | cons n nodes ih =>
      rcases hrslt with rfl | rfl
      · obtain ⟨t, ht⟩ := hw.represents set (List.mem_of_getElem? hi)
        have hn := hnodes n List.mem_cons_self
        have hrest : ∀ m ∈ nodes, m ∈ w.nodes := fun m hm => hnodes m (List.mem_cons_of_mem _ hm)
        have hvalue := hw.value_ne n hn
        have hread : ¬ (set.contentType = .char ∧ n.value = 0) := fun hnull => hvalue hnull.2
        have hlookup := ht.lookup_eq hread
        have hmap := ht.map_eq (hashKey text set.contentType n.value)
        have hlt := (List.getElem?_eq_some_iff.mp hi).1
        rw [HashWorld.unionLoop, if_neg (by decide), hi]
        simp only [Option.bind_eq_bind, Option.bind_some, hlookup]
        cases hfind : t.find? (hashKey text set.contentType n.value) with
        | none =>
            rw [hfind] at hmap
            cases hmemory : memory n with
            | false =>
                refine ⟨.outOfMemory, w, set, unionLoop_outOfMemory _ _ _ _, hw, hi, rfl,
                  fun _ _ _ => rfl, fun _ => ⟨rfl, .inr ⟨rfl, fun _ => .inl rfl⟩⟩⟩
            | true =>
                obtain ⟨hw₁, hgrows⟩ := hw.clone hi ht hfind hn
                have hi₁ : (w.clone text true i set n).2.sets[i]? = some (set.addNode text n) :=
                  List.getElem?_set_self hlt
                have hlength : (w.clone text true i set n).2.sets.length = w.sets.length :=
                  List.length_set
                obtain ⟨rslt', w', set', hloop, hw', hi', hlength', hframe, hunited⟩ :=
                  ih (.inl rfl) hw₁ hi₁ (fun d hd' => hlength.symm ▸ hd d hd')
                    fun m hm => hgrows m (hrest m hm)
                refine ⟨rslt', w', set', hloop, hw', hi', hlength'.trans hlength,
                  fun k hk hkd => ?_, fun _ => ?_⟩
                · rw [hframe k hk hkd]
                  exact List.getElem?_set_ne (Ne.symm hk)
                · exact (hunited rfl).cons_of_update rfl hmap (ht.map_addNode hfind)
        | some node =>
            rw [hfind] at hmap
            have hthere : (set.map text (hashKey text set.contentType n.value)).isSome = true := by
              rw [hmap]
              rfl
            cases duplicates with
            | none =>
                obtain ⟨rslt', w', set', hloop, hw', hi', hlength', hframe, hunited⟩ :=
                  ih (.inl rfl) hw hi hd hrest
                exact ⟨rslt', w', set', hloop, hw', hi', hlength', hframe,
                  fun _ => (hunited rfl).cons_of_isSome hthere⟩
            | some d =>
                obtain ⟨hne, hdlt⟩ := hd d rfl
                obtain ⟨rslt₁, w₁, dup, hadd, hw₁, hsets₁, hgrows, -, -⟩ :=
                  hw.add (List.getElem?_eq_getElem hdlt) (memory n) (hw.alive n hn) hvalue
                have hi₁ : w₁.sets[i]? = some set := by
                  rw [hsets₁, List.getElem?_set_ne hne]
                  exact hi
                have hlength : w₁.sets.length = w.sets.length := by rw [hsets₁, List.length_set]
                obtain ⟨rslt', w', set', hloop, hw', hi', hlength', hframe, hunited⟩ :=
                  ih (.inl rfl) hw₁ hi₁ (fun d hd' => hlength.symm ▸ hd d hd')
                    fun m hm => hgrows m (hrest m hm)
                refine ⟨rslt', w', set', ?_, hw', hi', hlength'.trans hlength,
                  fun k hk hkd => ?_, fun _ => (hunited rfl).cons_of_isSome hthere⟩
                · dsimp only
                  rw [hadd]
                  exact hloop
                · have hkd' : d ≠ k := fun heq => hkd (heq ▸ rfl)
                  rw [hframe k hk hkd, hsets₁, List.getElem?_set_ne hkd']
      · exact ⟨.outOfMemory, w, set, unionLoop_outOfMemory _ _ _ _, hw, hi, rfl,
          fun _ _ _ => rfl, fun hok => absurd hok (by decide)⟩

end Sound

end HashWorld

end PubNub
