import PubNubCore.Lib.RefCount
import PubNubCore.Subscribables.Registry

/-!
# Hash sets

`lib/pbhash_set.c`.  A node has a `value`, which is compared and hashed, and may have a `containing`
object; pointers are numbers, with `NULL` for 0.  The key of a node is its value, or the text there in a
set for strings: `text` gives the texts, which belong to whoever has added them.

`pbhash_set_union` puts copies of the nodes of another set, which share a reference counter with them.
Whoever takes out a node that is the last one of its counter calls the destructor of the set it was in;
`destroyed` lists what has been destroyed.

The allocations of counters, and of the set of duplicates, are taken to succeed.
-/

namespace PubNub

/-! ## The data -/

/-- `pbhash_set_content_type`. -/
inductive HashContentType
  | generic | char
  deriving DecidableEq

/-- `pbhash_set_res`. -/
inductive PbhashSetRes
  | ok | valueExists | exactMatchExists | notFound | outOfMemory
  deriving DecidableEq

/-- `struct pbhash_set_node`, with the number of its counter. -/
structure PbhashNode where
  value : Nat
  containing : Nat
  counter : Nat
  deriving DecidableEq

/-- `struct pbhash_set`; `free` tells whether there is a destructor. -/
structure PbhashSetT where
  contentType : HashContentType
  buckets : List (List PbhashNode)
  elementsCount : Nat
  free : Bool

/-- A pointer, or the text there. -/
inductive HashKey
  | pointer (value : Nat)
  | text (text : Bytes)
  deriving DecidableEq

/-- What a node stands for. -/
def PbhashNode.element (node : PbhashNode) : Nat :=
  if node.containing ≠ 0 then node.containing else node.value

namespace PbhashSetT

variable (text : Nat → Bytes)

/-! ## The functions on one set -/

/-- `pbhash_set_alloc`. -/
def alloc (length : Nat) (contentType : HashContentType) (free : Bool) : PbhashSetT where
  contentType := contentType
  buckets := List.replicate length []
  elementsCount := 0
  free := free

/-- `pbhash_set_element_hash_`. -/
def elementHash (set : PbhashSetT) (element : Nat) : Nat :=
  match set.contentType with
  | .generic => element % set.buckets.length
  | .char => pbhashSetElementHash set.buckets.length (text element)

/-- `pbhash_set_is_equal_elements_`. -/
def isEqualElements (set : PbhashSetT) (element1 element2 : Nat) : Bool :=
  match set.contentType with
  | .char => text element1 == text element2
  | .generic => element1 == element2

/-- The node of an element.  The text at `NULL` cannot be read, and there is no bucket in a set without
    buckets. -/
def lookup (set : PbhashSetT) (element : Nat) : Option (Option PbhashNode) :=
  if set.contentType = .char ∧ element = 0 then none
  else do
    let bucket ← set.buckets[set.elementHash text element]?
    some (bucket.find? fun node => set.isEqualElements text node.value element)

/-- `pbhash_set_contains_` for the node that has been found. -/
def containsRes (element : Nat) : Option PbhashNode → PbhashSetRes
  | some node => if node.value = element then .exactMatchExists else .valueExists
  | none => .notFound

/-- The end of `pbhash_set_add_node_`. -/
def addNode (set : PbhashSetT) (node : PbhashNode) : PbhashSetT :=
  { set with buckets := set.buckets.modify (set.elementHash text node.value) (List.cons node)
             elementsCount := set.elementsCount + 1 }

/-- The node of an element is taken out of its bucket. -/
def unlink (set : PbhashSetT) (element : Nat) : PbhashSetT :=
  { set with buckets := set.buckets.modify (set.elementHash text element)
                          (List.eraseP fun node => set.isEqualElements text node.value element)
             elementsCount := set.elementsCount - 1 }

/-- All nodes, bucket by bucket. -/
def nodes (set : PbhashSetT) : List PbhashNode := set.buckets.flatten

/-- `for (int i = 0; i < set->bucket_length; ++i)`, with the nodes of each bucket. -/
def iterate (set : PbhashSetT) : Option (List PbhashNode) :=
  if set.buckets.length < 2 ^ 31 then some set.nodes else none

/-- `pbhash_set_elements`, where there is memory for them; `element_index` is an `int` too. -/
def elements (set : PbhashSetT) : Option (List Nat) :=
  if set.elementsCount = 0 then some []
  else do
    let nodes ← set.iterate
    if nodes.length ≤ set.elementsCount ∧ nodes.length < 2 ^ 31 then
      some (nodes.map PbhashNode.element)
    else none

/-- `pbhash_set_contains`, element by element. -/
def containsAll (set : PbhashSetT) : List Nat → Option Bool
  | [] => some true
  | element :: elements => do
      let found ← set.lookup text element
      if found.isSome then set.containsAll elements else some false

/-- `pbhash_set_is_equal`; `memory` tells whether the list of elements can be allocated. -/
def isEqual (memory : Bool) (set otherSet : PbhashSetT) : Option Bool :=
  if set.contentType = otherSet.contentType ∧ set.elementsCount = otherSet.elementsCount then
    if memory then do otherSet.containsAll text (← set.elements)
    else if set.elementsCount = 0 then some true else none
  else some false

end PbhashSetT

/-! ## The functions on all sets -/

/-- The sets, the counters of their nodes, and what has been destroyed and not allocated again. -/
structure HashWorld where
  sets : List PbhashSetT
  counters : List Nat
  destroyed : List Nat

namespace HashWorld

variable (text : Nat → Bytes)

/-- The nodes of all sets. -/
def nodes (w : HashWorld) : List PbhashNode := w.sets.flatMap PbhashSetT.nodes

/-- `pbhash_set_add`; `memory` tells whether the node can be allocated. -/
def add (w : HashWorld) (memory : Bool) (i element containing : Nat) :
    Option (PbhashSetRes × HashWorld) := do
  let set ← w.sets[i]?
  match ← set.lookup text element with
  | some node => some (PbhashSetT.containsRes element (some node), w)
  | none =>
      if memory then
        let node : PbhashNode := ⟨element, containing, w.counters.length⟩
        some (.ok, { w with sets := w.sets.set i (set.addNode text node)
                            counters := w.counters ++ [1] })
      else some (.outOfMemory, w)

/-- `pbhash_set_add_node_` for a copy of a node. -/
def clone (w : HashWorld) (memory : Bool) (i : Nat) (set : PbhashSetT) (node : PbhashNode) :
    PbhashSetRes × HashWorld :=
  if memory then
    (.ok, { w with sets := w.sets.set i (set.addNode text node)
                   counters := w.counters.modify node.counter (· + 1) })
  else (.outOfMemory, w)

/-- The loops of `pbhash_set_union`. -/
def unionLoop (memory : PbhashNode → Bool) (i : Nat) (duplicates : Option Nat) :
    List PbhashNode → PbhashSetRes → HashWorld → Option (PbhashSetRes × HashWorld)
  | [], rslt, w => some (rslt, w)
  | node :: nodes, rslt, w =>
      if rslt = .outOfMemory then some (rslt, w)
      else do
        let set ← w.sets[i]?
        match ← set.lookup text node.value, duplicates with
        | none, _ =>
            let added := w.clone text (memory node) i set node
            unionLoop memory i duplicates nodes added.1 added.2
        | some _, some d =>
            let added ← w.add text (memory node) d node.value node.containing
            unionLoop memory i duplicates nodes rslt added.2
        | some _, none => unionLoop memory i duplicates nodes rslt w

/-- `pbhash_set_union`. -/
def union (w : HashWorld) (memory : PbhashNode → Bool) (i j : Nat) (duplicates : Bool) :
    Option (PbhashSetRes × HashWorld) := do
  let set ← w.sets[i]?
  let otherSet ← w.sets[j]?
  let nodes ← otherSet.iterate
  if duplicates then
    let duplicatesSet := PbhashSetT.alloc set.buckets.length set.contentType false
    unionLoop text memory i (some w.sets.length) nodes .ok
      { w with sets := w.sets ++ [duplicatesSet] }
  else unionLoop text memory i none nodes .ok w

/-- `pbhash_set_remove`, and whether the destructor has been called: then the pointer to the containing
    object is set to `NULL`, or the one to the element where there is none. -/
def remove (w : HashWorld) (i element : Nat) : Option (PbhashSetRes × Bool × HashWorld) := do
  let set ← w.sets[i]?
  if element = 0 ∨ set.elementsCount = 0 then some (.notFound, false, w)
  else
    match ← set.lookup text element with
    | none => some (.notFound, false, w)
    | some node =>
        -- `pbhash_set_free_node_`
        let removed := set.free && w.counters.getD node.counter 0 - 1 == 0
        some (.ok, removed,
          { sets := w.sets.set i (set.unlink text element)
            counters := w.counters.modify node.counter (· - 1)
            destroyed := if removed then node.element :: w.destroyed else w.destroyed })

/-- `*containing = NULL` for a node of a set. -/
def nullify (w : HashWorld) (j : Nat) (node : PbhashNode) : HashWorld :=
  { w with sets := w.sets.modify j fun set =>
      { set with buckets := set.buckets.map (List.map fun n =>
          if n = node then { n with containing := 0 } else n) } }

/-- The loops of `pbhash_set_subtract`.  Where a set is subtracted from itself, the node whose pointer is
    set to `NULL` has been freed. -/
def subtractLoop (i j : Nat) :
    List PbhashNode → PbhashSetRes → HashWorld → Option (PbhashSetRes × HashWorld)
  | [], rslt, w => some (rslt, w)
  | node :: nodes, _, w => do
      let (rslt, removed, w) ← w.remove text i node.value
      if removed then
        if i = j then none else subtractLoop i j nodes rslt (w.nullify j node)
      else subtractLoop i j nodes rslt w

/-- `pbhash_set_subtract`. -/
def subtract (w : HashWorld) (i j : Nat) : Option (PbhashSetRes × HashWorld) := do
  let otherSet ← w.sets[j]?
  let nodes ← otherSet.iterate
  subtractLoop text i j nodes .ok w

end HashWorld

/-! ## Sets as tables -/

/-- The key of a value. -/
def hashKey (text : Nat → Bytes) (contentType : HashContentType) (value : Nat) : HashKey :=
  match contentType with
  | .generic => .pointer value
  | .char => .text (text value)

/-- `pbhash_set_element_hash_` as a function of the key. -/
def keyHash (length : Nat) : HashKey → Nat
  | .pointer value => value % length
  | .text text => pbhashSetElementHash length text

lemma keyHash_lt {length : Nat} (hpos : 0 < length) : ∀ k : HashKey, keyHash length k < length
  | .pointer value => Nat.mod_lt value hpos
  | .text text => pbhashSetElementHash_lt hpos text

namespace PbhashSetT

variable {text : Nat → Bytes} {set otherSet : PbhashSetT} {node : PbhashNode} {value : Nat}

/-- A node with its key. -/
def entry (text : Nat → Bytes) (contentType : HashContentType) (node : PbhashNode) :
    HashKey × PbhashNode := (hashKey text contentType node.value, node)

lemma elementHash_eq (text : Nat → Bytes) (set : PbhashSetT) (value : Nat) :
    set.elementHash text value = keyHash set.buckets.length (hashKey text set.contentType value) := by
  rw [elementHash]
  cases set.contentType with
  | generic => rfl
  | char => rfl

lemma isEqualElements_eq (text : Nat → Bytes) (set : PbhashSetT) (value : Nat) :
    (fun node : PbhashNode => set.isEqualElements text node.value value) =
      fun node => decide (hashKey text set.contentType node.value =
        hashKey text set.contentType value) := by
  funext node
  rw [isEqualElements]
  cases set.contentType with
  | generic => simp [hashKey, beq_eq_decide]
  | char => simp [hashKey, beq_eq_decide]

/-- The table that a set is. -/
structure Represents (text : Nat → Bytes) (set : PbhashSetT)
    (t : ChainedHash keyHash PbhashNode) : Prop where
  buckets_eq : t.buckets = set.buckets.map (List.map (entry text set.contentType))
  count_eq : set.elementsCount = set.nodes.length
  buckets_pos : 0 < set.buckets.length

namespace Represents

variable {t : ChainedHash keyHash PbhashNode}

lemma length_eq (h : Represents text set t) : t.buckets.length = set.buckets.length := by
  rw [h.buckets_eq, List.length_map]

lemma hash_lt (h : Represents text set t) (k : HashKey) :
    keyHash t.buckets.length k < t.buckets.length :=
  keyHash_lt (h.length_eq ▸ h.buckets_pos) k

lemma entries_eq (h : Represents text set t) :
    t.entries = set.nodes.map (entry text set.contentType) := by
  rw [ChainedHash.entries, h.buckets_eq, nodes, List.map_flatten]

end Represents

lemma lookup_map_entry (text : Nat → Bytes) (contentType : HashContentType) (k : HashKey)
    (nodes : List PbhashNode) : (nodes.map (entry text contentType)).lookup k =
      nodes.find? fun node => decide (hashKey text contentType node.value = k) := by
  induction nodes with
  | nil => rfl
  | cons node nodes ih =>
      rw [List.map_cons, entry]
      by_cases hk : hashKey text contentType node.value = k
      · have hfind : List.find? (fun node => decide (hashKey text contentType node.value = k))
            (node :: nodes) = some node := List.find?_cons_of_pos (decide_eq_true hk)
        rw [hk, List.lookup_cons_self, hfind]
      · have hne : (k == hashKey text contentType node.value) = false := by
          simpa using Ne.symm hk
        have hfind : List.find? (fun node => decide (hashKey text contentType node.value = k))
            (node :: nodes) = nodes.find? fun node => decide (hashKey text contentType node.value = k) :=
          List.find?_cons_of_neg (by simpa using hk)
        rw [List.lookup_cons, hne, hfind]
        exact ih

namespace Represents

variable {t : ChainedHash keyHash PbhashNode}

lemma exists_bucket (h : Represents text set t) (value : Nat) :
    ∃ bucket, set.buckets[set.elementHash text value]? = some bucket ∧
      t.bucket (hashKey text set.contentType value) = bucket.map (entry text set.contentType) := by
  have hlt : set.elementHash text value < set.buckets.length := by
    rw [elementHash_eq]
    exact keyHash_lt h.buckets_pos _
  refine ⟨_, List.getElem?_eq_getElem hlt, ?_⟩
  rw [ChainedHash.bucket, h.length_eq, ← elementHash_eq, h.buckets_eq, List.getD_eq_getElem?_getD,
    List.getElem?_map, List.getElem?_eq_getElem hlt]
  rfl

/-- What is looked up in its bucket is looked up in the table. -/
lemma lookup_eq (h : Represents text set t) (hread : ¬ (set.contentType = .char ∧ value = 0)) :
    set.lookup text value = some (t.find? (hashKey text set.contentType value)) := by
  obtain ⟨bucket, hget, hbucket⟩ := h.exists_bucket value
  rw [lookup, if_neg hread, hget, ChainedHash.find?, hbucket, lookup_map_entry, isEqualElements_eq]
  rfl

lemma addNode (h : Represents text set t)
    (hnew : t.find? (hashKey text set.contentType node.value) = none) :
    Represents text (set.addNode text node)
        (t.insertNew (hashKey text set.contentType node.value) node) ∧
      (set.addNode text node).nodes.Perm (node :: set.nodes) := by
  have hlt : set.elementHash text node.value < set.buckets.length := by
    rw [elementHash_eq]
    exact keyHash_lt h.buckets_pos _
  have hperm : (set.addNode text node).nodes.Perm (node :: set.nodes) :=
    perm_flatten_modify_cons node hlt
  refine ⟨⟨?_, ?_, ?_⟩, hperm⟩
  · have hcons : ∀ bucket : List PbhashNode, (node :: bucket).map (entry text set.contentType) =
        entry text set.contentType node :: bucket.map (entry text set.contentType) := fun _ => rfl
    rw [ChainedHash.buckets_insertNew hnew, h.buckets_eq, List.length_map, ← elementHash_eq]
    exact (map_modify hcons _ _).symm
  · rw [hperm.length_eq, List.length_cons, ← h.count_eq]
    rfl
  · rw [PbhashSetT.addNode, List.length_modify]
    exact h.buckets_pos

lemma unlink (h : Represents text set t)
    (hfound : t.find? (hashKey text set.contentType value) = some node) :
    Represents text (set.unlink text value) (t.erase (hashKey text set.contentType value)) ∧
      set.nodes.Perm (node :: (set.unlink text value).nodes) := by
  obtain ⟨bucket, hget, hbucket⟩ := h.exists_bucket value
  rw [ChainedHash.find?, hbucket, lookup_map_entry, ← isEqualElements_eq] at hfound
  have hperm : set.nodes.Perm (node :: (set.unlink text value).nodes) :=
    perm_flatten_modify_eraseP hget hfound
  refine ⟨⟨?_, ?_, ?_⟩, hperm⟩
  · have herase : ∀ bucket : List PbhashNode,
        (bucket.eraseP fun node => set.isEqualElements text node.value value).map
            (entry text set.contentType) =
          (bucket.map (entry text set.contentType)).eraseP
            fun e => decide (e.1 = hashKey text set.contentType value) := fun bucket => by
      rw [List.eraseP_map, isEqualElements_eq]
      rfl
    rw [ChainedHash.buckets_erase, h.buckets_eq, List.length_map, ← elementHash_eq]
    exact (map_modify herase _ _).symm
  · have hlength := hperm.length_eq
    rw [List.length_cons, ← h.count_eq] at hlength
    change set.elementsCount - 1 = _
    omega
  · rw [PbhashSetT.unlink, List.length_modify]
    exact h.buckets_pos

end Represents

end PbhashSetT

end PubNub
