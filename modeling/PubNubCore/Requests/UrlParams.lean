import Mathlib.Data.List.Nodup
import PubNubCore.Lib.ExchangeSort
import PubNubCore.Requests.Preparation

/-!
# The parameters of a URL

`URL_PARAMS_INIT`, `ADD_URL_PARAM`, `SORT_URL_PARAMETERS` and `ENCODE_URL_PARAMETERS` of
`core/pubnub_ccore_pubsub.h`.  A preparation adds its parameters to an array with twelve slots, in
builds with cryptography sorts the array by its keys, and appends the slots that have a value to the
URL.  The separator of a slot is `?` if it is the first of the array, and `&` otherwise, whether
anything has been appended or not.

`queries_right` has what is needed for the query to be right: the URL to which it is appended has no
question mark, and the first slot has a value.  The one that fails is the URL which the server gives
for more actions: it has a query already.
-/

namespace PubNub

/-- A key is a name of the source. -/
structure ParamKey extends CText where
  question_not_mem : 63 ∉ text

/-- A used slot; `val` is `none` for `NULL`. -/
structure UrlParam where
  key : ParamKey
  val : Option CText

/-- `qparam` and `qparam_index`. -/
structure UrlParams where
  slots : List (Option UrlParam)
  index : Nat

/-- `PUBNUB_MAX_URL_PARAMS` -/
def pubnubMaxUrlParams : Nat := 12

/-- `URL_PARAMS_INIT` -/
def urlParamsInit : UrlParams := ⟨List.replicate pubnubMaxUrlParams none, 0⟩

/-- `ADD_URL_PARAM` -/
def addUrlParam (q : UrlParams) (p : UrlParam) : Option UrlParams :=
  if q.index < q.slots.length then some ⟨q.slots.set q.index (some p), q.index + 1⟩ else none

/-- `strcmp(a, b) < 0` -/
def strcmpNegative : Bytes → Bytes → Bool
  | _, [] => false
  | [], _ :: _ => true
  | c :: a, d :: b => if c = d then strcmpNegative a b else c < d

/-- `name[i].param_key != NULL && name[j].param_key != NULL &&
    (strcmp(name[i].param_key, name[j].param_key) < 0)` -/
def keyBefore : Option UrlParam → Option UrlParam → Bool
  | some p, some q => strcmpNegative p.key.text q.key.text
  | _, _ => false

/-- `SORT_URL_PARAMETERS` -/
def sortUrlParameters (slots : List (Option UrlParam)) : List (Option UrlParam) :=
  exchangeSort keyBefore (pubnubMaxUrlParams - 1) pubnubMaxUrlParams slots

/-- The step for a slot. -/
def slotStep (pt : Pbtt) : Option UrlParam × Nat → Option PrepStep
  | (some ⟨key, some val⟩, i) => some (.param i key.toCText val pt)
  | _ => none

/-- `ENCODE_URL_PARAMS_TRANS` -/
def encodeUrlParams (pt : Pbtt) (slots : List (Option UrlParam)) : List PrepStep :=
  (slots.take (pubnubMaxUrlParams - 1)).zipIdx.filterMap (slotStep pt)

/-- The parameters that a preparation adds: at most eleven, each key once. -/
structure ParamList where
  params : List UrlParam
  length_le : params.length ≤ 11
  nodup : (params.map fun p => p.key.text).Nodup

/-- A preparation of a URL with a query; `cryptoApi` says that the build has `PUBNUB_CRYPTO_API`. -/
structure UrlPrep where
  path : CText
  steps : List PrepStep
  params : ParamList
  pt : Pbtt
  cryptoApi : Bool
  signing : Option Signing

namespace UrlPrep

/-- The steps of the preparation. -/
def prepSteps (u : UrlPrep) : Option PrepSteps :=
  (u.params.params.foldlM addUrlParam urlParamsInit).map fun q =>
    { path := u.path
      steps := u.steps ++
        encodeUrlParams u.pt (if u.cryptoApi then sortUrlParameters q.slots else q.slots)
      signing := u.signing
      body := none }

/-- What is in front of the query. -/
def urlPath (B : PrepBuild) (u : UrlPrep) : Bytes :=
  u.path.text ++ u.steps.flatMap (PrepStep.text B)

end UrlPrep

/-! ## What a query should be -/

/-- A parameter with its value. -/
def pairText (encode : Bytes → Bytes) (p : Bytes × Bytes) : Bytes := p.1 ++ 61 :: encode p.2

/-- The query of some parameters. -/
def queryText (encode : Bytes → Bytes) : List (Bytes × Bytes) → Bytes
  | [] => []
  | p :: ps => 63 :: pairText encode p ++ ps.flatMap fun q => 38 :: pairText encode q

/-- The parameters that have a value. -/
def valued (params : List UrlParam) : List (Bytes × Bytes) :=
  params.filterMap fun p => p.val.map fun val => (p.key.text, val.text)

/-- The URL lists every parameter that has a value once, in a build with cryptography in the order of
    their keys, and its only question mark is in front of them, where the signer finds it. -/
def QueryRight (B : PrepBuild) (u : UrlPrep) (url : Bytes) : Prop :=
  ∃ params, params.Perm (valued u.params.params) ∧
    (u.cryptoApi = true → params.Pairwise fun p q => strcmpNegative q.1 p.1 = false) ∧
    url = u.urlPath B ++
      queryText (percentEncode (okSpanChars B.urlEncode u.pt).contains) params ++
      signedText u.signing ∧
    url.count 63 = (if params = [] then 0 else 1) ∧
    (params ≠ [] → url.takeWhile (· != 63) = u.urlPath B)

/-- The first slot has a value, or none has. -/
def FirstHasValue (u : UrlPrep) : Prop :=
  valued u.params.params = [] ∨
    if u.cryptoApi then ∀ p ∈ u.params.params, p.val = none →
      ∃ q ∈ u.params.params, q.val ≠ none ∧ strcmpNegative q.key.text p.key.text = true
    else ∀ p ∈ u.params.params.head?, p.val ≠ none

/-! ## The slots -/

section Slots

variable {params : List UrlParam} {pt : Pbtt}

/-- The added parameters are in the first slots. -/
lemma foldlM_addUrlParam (h : params.length ≤ pubnubMaxUrlParams) :
    params.foldlM addUrlParam urlParamsInit = some
      ⟨params.map some ++ List.replicate (pubnubMaxUrlParams - params.length) none, params.length⟩ := by
  have hrest : ∀ (done rest : List UrlParam), (done ++ rest).length ≤ pubnubMaxUrlParams →
      rest.foldlM addUrlParam
        ⟨done.map some ++ List.replicate (pubnubMaxUrlParams - done.length) none, done.length⟩ =
      some ⟨(done ++ rest).map some ++
        List.replicate (pubnubMaxUrlParams - (done ++ rest).length) none, (done ++ rest).length⟩ := by
    intro done rest hle
    induction rest generalizing done with
    | nil => rw [List.append_nil]; rfl
    | cons p rest ih =>
        rw [List.length_append, List.length_cons] at hle
        have hslot : pubnubMaxUrlParams - done.length =
            pubnubMaxUrlParams - (done ++ [p]).length + 1 := by
          rw [List.length_append, List.length_singleton]
          omega
        have hadd : addUrlParam
            ⟨done.map some ++ List.replicate (pubnubMaxUrlParams - done.length) none, done.length⟩ p =
            some ⟨(done ++ [p]).map some ++
              List.replicate (pubnubMaxUrlParams - (done ++ [p]).length) none,
              (done ++ [p]).length⟩ := by
          have hlength : (done.map some).length = done.length := List.length_map _
          rw [addUrlParam, if_pos, hslot, List.replicate_succ]
          · dsimp only
            rw [← hlength, List.set_append_right _ _ (Nat.le_refl _), Nat.sub_self,
              List.set_cons_zero]
            simp
          · rw [List.length_append, List.length_map, List.length_replicate]
            dsimp only
            omega
        have hnext := ih (done ++ [p]) (by simpa using hle)
        rw [List.foldlM_cons, hadd]
        simpa using hnext
  simpa [urlParamsInit] using hrest [] params (by simpa using h)

lemma strcmpNegative_weak : OrdersWeakly strcmpNegative where
  asymm := by
    intro a b h
    induction a generalizing b with
    | nil => cases b <;> rfl
    | cons c a ih =>
        cases b with
        | nil => cases h
        | cons d b =>
            rw [strcmpNegative] at h ⊢
            by_cases hcd : c = d
            · rw [if_pos hcd] at h
              rw [if_pos hcd.symm]
              exact ih b h
            · rw [if_neg hcd, decide_eq_true_eq, UInt8.lt_iff_toNat_lt] at h
              rw [if_neg (Ne.symm hcd), decide_eq_false_iff_not, UInt8.lt_iff_toNat_lt]
              omega
  trans := by
    intro a b c hba hcb
    induction a generalizing b c with
    | nil =>
        cases b with
        | nil => exact hcb
        | cons y b =>
          cases c with
          | nil => rfl
          | cons z c => rfl
    | cons x a ih =>
        cases b with
        | nil => cases hba
        | cons y b =>
            cases c with
            | nil => cases hcb
            | cons z c =>
                rw [strcmpNegative] at hba hcb ⊢
                by_cases hyx : y = x
                · by_cases hzy : z = y
                  · rw [if_pos hyx] at hba
                    rw [if_pos hzy] at hcb
                    rw [if_pos (hzy.trans hyx)]
                    exact ih b c hba hcb
                  · rw [if_neg hzy] at hcb
                    rw [if_neg (hyx ▸ hzy), ← hyx]
                    exact hcb
                · rw [if_neg hyx, decide_eq_false_iff_not, UInt8.lt_iff_toNat_lt] at hba
                  have hne : y.toNat ≠ x.toNat := fun h => hyx (UInt8.toNat_inj.mp h)
                  have hzx : ¬ z.toNat ≤ x.toNat := by
                    by_cases hzy : z = y
                    · rw [hzy]
                      omega
                    · rw [if_neg hzy, decide_eq_false_iff_not, UInt8.lt_iff_toNat_lt] at hcb
                      omega
                  have hne' : z ≠ x := fun h => hzx (Nat.le_of_eq (congrArg UInt8.toNat h))
                  rw [if_neg hne', decide_eq_false_iff_not, UInt8.lt_iff_toNat_lt]
                  omega

/-- The slots without a key take no part in an exchange. -/
lemma exchange_slots (params : List UrlParam) (k i j : Nat) :
    exchange keyBefore (params.map some ++ List.replicate k none) i j =
      (exchange (fun p q => strcmpNegative p.key.text q.key.text) params i j).map some ++
        List.replicate k none := by
  have hslot : ∀ i, (params.map some ++ List.replicate k none)[i]? =
      if i < params.length then params[i]?.map some
      else if i < params.length + k then some none else none := by
    intro i
    by_cases hi : i < params.length
    · rw [if_pos hi, List.getElem?_append_left (by rwa [List.length_map]), List.getElem?_map]
    · rw [if_neg hi, List.getElem?_append_right (by rw [List.length_map]; omega), List.length_map,
        List.getElem?_replicate]
      split
      · rw [if_pos (by omega)]
      · rw [if_neg (by omega)]
  by_cases hi : i < params.length
  · by_cases hj : j < params.length
    · have hx : (params.map some ++ List.replicate k none)[i]? = some (some params[i]) := by
        rw [hslot, if_pos hi, List.getElem?_eq_getElem hi]
        rfl
      have hy : (params.map some ++ List.replicate k none)[j]? = some (some params[j]) := by
        rw [hslot, if_pos hj, List.getElem?_eq_getElem hj]
        rfl
      rw [exchange_eq hx hy, exchange_eq (List.getElem?_eq_getElem hi) (List.getElem?_eq_getElem hj)]
      by_cases hlt : strcmpNegative params[i].key.text params[j].key.text = true
      · rw [if_pos hlt, if_pos (show keyBefore (some _) (some _) = true from hlt),
          List.set_append_left _ _ (by rwa [List.length_map]),
          List.set_append_left _ _ (by rwa [List.length_set, List.length_map]), List.map_set,
          List.map_set]
      · rw [if_neg hlt, if_neg (show ¬ keyBefore (some _) (some _) = true from hlt)]
    · rw [exchange_of_le (.inr (Nat.le_of_not_lt hj)), exchange]
      rw [hslot i, hslot j, if_neg hj, if_pos hi, List.getElem?_eq_getElem hi]
      split
      · rename_i hy
        split at hy
        · cases hy
          simp [keyBefore]
        · cases hy
      · rfl
  · rw [exchange_of_le (.inl (Nat.le_of_not_lt hi)), exchange]
    rw [hslot i, if_neg hi]
    split
    · rename_i hx _
      split at hx
      · cases hx
        simp [keyBefore]
      · cases hx
    · rfl

/-- The parameters in the order of their keys. -/
def sortParams (params : List UrlParam) : List UrlParam :=
  exchangeSort (fun p q => strcmpNegative p.key.text q.key.text) (pubnubMaxUrlParams - 1)
    pubnubMaxUrlParams params

lemma sortUrlParameters_slots (params : List UrlParam) (k : Nat) :
    sortUrlParameters (params.map some ++ List.replicate k none) =
      (sortParams params).map some ++ List.replicate k none := by
  have hpass : ∀ (i : Nat) (js : List Nat) (params : List UrlParam),
      js.foldl (fun l j => exchange keyBefore l i j) (params.map some ++ List.replicate k none) =
        (js.foldl (fun l j => exchange (fun p q => strcmpNegative p.key.text q.key.text) l i j)
          params).map some ++ List.replicate k none := by
    intro i js
    induction js with
    | nil => exact fun _ => rfl
    | cons j js ih =>
        intro params
        rw [List.foldl_cons, List.foldl_cons, exchange_slots, ih]
  rw [sortUrlParameters, sortParams, exchangeSort, exchangeSort]
  induction List.range (pubnubMaxUrlParams - 1) generalizing params with
  | nil => rfl
  | cons i is ih =>
      rw [List.foldl_cons, List.foldl_cons, exchangePass, hpass, ih]
      rfl

/-- They are sorted, if there is a pass for each of them. -/
lemma sortParams_sorts (h : params.length ≤ 11) :
    (sortParams params).Perm params ∧
      (sortParams params).Pairwise fun p q => strcmpNegative q.key.text p.key.text = false :=
  orderedBy_exchangeSort
    ⟨fun _ _ => strcmpNegative_weak.asymm _ _, fun _ _ _ => strcmpNegative_weak.trans _ _ _⟩ h
    (Nat.le_succ_of_le h)

/-! ## The query -/

/-- What the slots from a place on append. -/
def slotsText (encode : Bytes → Bytes) : Nat → List UrlParam → Bytes
  | _, [] => []
  | i, p :: params => (p.val.map fun val =>
      paramSeparator i :: pairText encode (p.key.text, val.text)).getD [] ++
        slotsText encode (i + 1) params

lemma valued_cons_none {p : UrlParam} (h : p.val = none) :
    valued (p :: params) = valued params := by
  rw [valued, List.filterMap_cons_none (by rw [h]; rfl)]
  rfl

lemma valued_cons_some {p : UrlParam} {val : CText} (h : p.val = some val) :
    valued (p :: params) = (p.key.text, val.text) :: valued params := by
  rw [valued, List.filterMap_cons_some (by rw [h]; rfl)]
  rfl

/-- The slots without a key append nothing. -/
lemma flatMap_encodeUrlParams (B : PrepBuild) (h : params.length ≤ 11) :
    (encodeUrlParams pt (params.map some ++
        List.replicate (pubnubMaxUrlParams - params.length) none)).flatMap (PrepStep.text B) =
      slotsText (percentEncode (okSpanChars B.urlEncode pt).contains) 0 params := by
  have hused : ∀ (i : Nat) (params : List UrlParam),
      (((params.map some).zipIdx i).filterMap (slotStep pt)).flatMap (PrepStep.text B) =
        slotsText (percentEncode (okSpanChars B.urlEncode pt).contains) i params := by
    intro i params
    induction params generalizing i with
    | nil => rfl
    | cons p params ih =>
        obtain ⟨key, val⟩ := p
        rw [List.map_cons, List.zipIdx_cons]
        cases val with
        | none =>
            rw [List.filterMap_cons_none rfl, ih]
            rfl
        | some val =>
            have hstep : slotStep pt (some ⟨key, some val⟩, i) =
                some (.param i key.toCText val pt) := rfl
            rw [List.filterMap_cons_some hstep, List.flatMap_cons, ih]
            rfl
  have hunused : ∀ i k, ((List.replicate k (none : Option UrlParam)).zipIdx i).filterMap
      (slotStep pt) = [] := by
    intro i k
    rw [List.filterMap_eq_nil_iff]
    intro x hx
    obtain ⟨x, j⟩ := x
    obtain rfl := List.eq_of_mem_replicate (List.fst_mem_of_mem_zipIdx hx)
    rfl
  have htake : (params.map some ++ List.replicate (pubnubMaxUrlParams - params.length) none).take
      (pubnubMaxUrlParams - 1) = params.map some ++ List.replicate (11 - params.length) none := by
    rw [List.take_append, List.length_map, List.take_of_length_le (by rwa [List.length_map]),
      List.take_replicate, show pubnubMaxUrlParams = 12 from rfl]
    congr 2
    omega
  rw [encodeUrlParams, htake, List.zipIdx_append, List.filterMap_append, hunused, List.append_nil,
    hused]

lemma slotsText_succ (encode : Bytes → Bytes) (i : Nat) (params : List UrlParam) :
    slotsText encode (i + 1) params =
      (valued params).flatMap fun q => 38 :: pairText encode q := by
  induction params generalizing i with
  | nil => rfl
  | cons p params ih =>
      rw [slotsText, ih]
      cases h : p.val with
      | none => rw [valued_cons_none h, Option.map_none]; rfl
      | some val => rw [valued_cons_some h, Option.map_some, List.flatMap_cons]; rfl

/-- The slots make a query if the first has a value. -/
lemma slotsText_of_first {encode : Bytes → Bytes}
    (h : valued params = [] ∨ ∀ p ∈ params.head?, p.val ≠ none) :
    slotsText encode 0 params = queryText encode (valued params) := by
  cases params with
  | nil => rfl
  | cons p params =>
      rw [slotsText, slotsText_succ]
      cases hval : p.val with
      | none =>
          rw [valued_cons_none hval] at h ⊢
          rcases h with h | h
          · rw [h]
            rfl
          · exact absurd hval (h p rfl)
      | some val =>
          rw [valued_cons_some hval]
          rfl

/-- And they make none if it has no value, and another has. -/
lemma first_of_slotsText {encode : Bytes → Bytes} {pairs : List (Bytes × Bytes)}
    (h : slotsText encode 0 params = queryText encode pairs) (hperm : pairs.Perm (valued params)) :
    valued params = [] ∨ ∀ p ∈ params.head?, p.val ≠ none := by
  cases params with
  | nil => exact .inl rfl
  | cons p params =>
      rw [slotsText, slotsText_succ] at h
      cases hval : p.val with
      | some val =>
          refine .inr fun q hq => ?_
          cases hq
          rw [hval]
          exact Option.some_ne_none val
      | none =>
          rw [valued_cons_none hval] at hperm ⊢
          rw [hval] at h
          cases hpairs : pairs with
          | nil =>
              rw [hpairs] at hperm
              exact .inl hperm.symm.eq_nil
          | cons q qs =>
              cases hvalued : valued params with
              | nil => exact .inl rfl
              | cons r rs =>
                  rw [hvalued, hpairs] at h
                  have hhead := congrArg List.head? h
                  simp [queryText] at hhead

/-- Two keys that are not to be before one another are the same. -/
lemma eq_of_strcmpNegative {a b : Bytes} (hab : strcmpNegative a b = false)
    (hba : strcmpNegative b a = false) : a = b := by
  induction a generalizing b with
  | nil =>
      cases b with
      | nil => rfl
      | cons d b => cases hab
  | cons c a ih =>
      cases b with
      | nil => cases hba
      | cons d b =>
          rw [strcmpNegative] at hab hba
          by_cases hcd : c = d
          · rw [if_pos hcd] at hab
            rw [if_pos hcd.symm] at hba
            rw [hcd, ih hab hba]
          · rw [if_neg hcd, decide_eq_false_iff_not, UInt8.lt_iff_toNat_lt] at hab
            rw [if_neg (Ne.symm hcd), decide_eq_false_iff_not, UInt8.lt_iff_toNat_lt] at hba
            exact absurd (UInt8.toNat_inj.mp (by omega)) hcd

/-- The first of the sorted parameters has a value if every one that has none comes behind one that
    has. -/
lemma head_sortParams_iff (h : params.length ≤ 11)
    (hnodup : (params.map fun p => p.key.text).Nodup) (hsome : valued params ≠ []) :
    (∀ p ∈ (sortParams params).head?, p.val ≠ none) ↔ ∀ p ∈ params, p.val = none →
      ∃ q ∈ params, q.val ≠ none ∧ strcmpNegative q.key.text p.key.text = true := by
  obtain ⟨hperm, hordered⟩ := sortParams_sorts h
  have hirrefl := strcmpNegative_weak.irrefl
  have hkeys := (hperm.map fun p => p.key.text).nodup_iff.mpr hnodup
  have hmem : ∀ p, p ∈ sortParams params ↔ p ∈ params := fun p => hperm.mem_iff
  cases hsorted : sortParams params with
  | nil =>
      rw [hsorted] at hperm
      rw [hperm.symm.eq_nil] at hsome
      exact absurd rfl hsome
  | cons q qs =>
      rw [hsorted] at hordered hkeys hmem
      obtain ⟨hfirst, -⟩ := List.pairwise_cons.mp hordered
      rw [List.map_cons, List.nodup_cons] at hkeys
      constructor
      · intro hhead p hp hval
        have hq : q.val ≠ none := hhead q rfl
        refine ⟨q, (hmem q).mp List.mem_cons_self, hq, ?_⟩
        rcases List.mem_cons.mp ((hmem p).mpr hp) with rfl | hp
        · exact absurd hval hq
        · rw [← Bool.not_eq_false]
          intro hnot
          have heq := eq_of_strcmpNegative hnot (hfirst p hp)
          exact hkeys.1 (heq ▸ List.mem_map_of_mem hp)
      · rintro hall p ⟨⟩ hval
        obtain ⟨r, hr, -, hlt⟩ := hall q ((hmem q).mp List.mem_cons_self) hval
        rcases List.mem_cons.mp ((hmem r).mpr hr) with rfl | hr
        · rw [hirrefl] at hlt
          cases hlt
        · rw [hfirst r hr] at hlt
          cases hlt

/-- A query has one question mark, if the keys and the encoded values have none. -/
lemma count_queryText {encode : Bytes → Bytes} {pairs : List (Bytes × Bytes)}
    (h : ∀ p ∈ pairs, 63 ∉ p.1 ∧ 63 ∉ encode p.2) :
    (queryText encode pairs).count 63 = if pairs = [] then 0 else 1 := by
  have hpair : ∀ p ∈ pairs, 63 ∉ pairText encode p := by
    intro p hp
    obtain ⟨hkey, hval⟩ := h p hp
    rw [pairText, List.mem_append, List.mem_cons, not_or, not_or]
    exact ⟨hkey, by decide, hval⟩
  cases pairs with
  | nil => rfl
  | cons p pairs =>
      have hrest : 63 ∉ pairText encode p ++ pairs.flatMap fun q => 38 :: pairText encode q := by
        rw [List.mem_append, List.mem_flatMap, not_or]
        refine ⟨hpair p List.mem_cons_self, ?_⟩
        rintro ⟨q, hq, hmem⟩
        rcases List.mem_cons.mp hmem with hamp | hmem
        · exact absurd hamp (by decide)
        · exact hpair q (List.mem_cons_of_mem p hq) hmem
      rw [if_neg (List.cons_ne_nil p pairs), queryText, List.cons_append, List.count_cons_self,
        List.count_eq_zero.mpr hrest]

end Slots

/-! ## The query of a preparation -/

section Query

variable {B : PrepBuild} {u : UrlPrep}

/-- The parameters in the order in which they are appended. -/
def UrlPrep.inOrder (u : UrlPrep) : List UrlParam :=
  if u.cryptoApi then sortParams u.params.params else u.params.params

lemma UrlPrep.perm_inOrder (u : UrlPrep) : u.inOrder.Perm u.params.params := by
  rw [inOrder]
  split
  · exact (sortParams_sorts u.params.length_le).1
  · exact .refl _

/-- There is always room for the parameters, and this is the URL. -/
lemma UrlPrep.exists_prepSteps (B : PrepBuild) (u : UrlPrep) :
    ∃ p, u.prepSteps = some p ∧ p.signing = u.signing ∧ p.url B = u.urlPath B ++
      slotsText (percentEncode (okSpanChars B.urlEncode u.pt).contains) 0 u.inOrder ++
      signedText u.signing := by
  have hslots := foldlM_addUrlParam (Nat.le_succ_of_le u.params.length_le)
  have hlength := u.perm_inOrder.length_eq
  have horder : (if u.cryptoApi = true then
      sortUrlParameters (u.params.params.map some ++
        List.replicate (pubnubMaxUrlParams - u.params.params.length) none)
      else u.params.params.map some ++
        List.replicate (pubnubMaxUrlParams - u.params.params.length) none) =
      u.inOrder.map some ++ List.replicate (pubnubMaxUrlParams - u.inOrder.length) none := by
    rw [hlength, inOrder]
    split
    · exact sortUrlParameters_slots _ _
    · rfl
  refine ⟨_, by rw [prepSteps, hslots, Option.map_some], rfl, ?_⟩
  dsimp only [PrepSteps.url]
  rw [horder, List.flatMap_append, flatMap_encodeUrlParams B (hlength.trans_le u.params.length_le),
    urlPath, ← List.append_assoc]

lemma firstHasValue_iff (u : UrlPrep) : FirstHasValue u ↔
    valued u.inOrder = [] ∨ ∀ p ∈ u.inOrder.head?, p.val ≠ none := by
  have hperm : (valued u.inOrder).Perm (valued u.params.params) := u.perm_inOrder.filterMap _
  have hnil : valued u.inOrder = [] ↔ valued u.params.params = [] :=
    ⟨fun h => (h ▸ hperm).symm.eq_nil, fun h => (h ▸ hperm).eq_nil⟩
  rw [FirstHasValue, hnil]
  by_cases hsome : valued u.params.params = []
  · simp only [hsome, true_or]
  · refine or_congr_right ?_
    rw [UrlPrep.inOrder]
    split
    · exact (head_sortParams_iff u.params.length_le u.params.nodup hsome).symm
    · exact Iff.rfl

lemma question_not_mem_valued {params : List UrlParam} {p : Bytes × Bytes} (b : UrlEncodeBuild)
    (pt : Pbtt) (h : p ∈ valued params) :
    63 ∉ p.1 ∧ 63 ∉ percentEncode (okSpanChars b pt).contains p.2 := by
  obtain ⟨q, -, hq⟩ := List.mem_filterMap.mp h
  obtain ⟨val, -, rfl⟩ := Option.map_eq_some_iff.mp hq
  have hok : (okSpanChars b pt).contains 63 = false := by
    rw [okSpanChars]
    split
    · decide
    · decide
  exact ⟨q.key.question_not_mem, not_mem_percentEncode_of hok (by decide) (by decide) val.text⟩

lemma question_not_mem_signedText (signing : Option Signing) : 63 ∉ signedText signing := by
  cases signing with
  | none => exact List.not_mem_nil
  | some signing =>
      cases signing with
      | signature t hlength hquestion =>
          rw [signedText, List.mem_append, List.mem_cons (b := 61), not_or, not_or]
          exact ⟨by decide, by decide, hquestion⟩
      | _ => exact List.not_mem_nil

/-- The text of the slots is a right query if and only if it is put behind a path without a question
    mark, and the first slot has a value. -/
lemma queryRight_iff (B : PrepBuild) (u : UrlPrep) :
    QueryRight B u (u.urlPath B ++
      slotsText (percentEncode (okSpanChars B.urlEncode u.pt).contains) 0 u.inOrder ++
      signedText u.signing) ↔ 63 ∉ u.urlPath B ∧ FirstHasValue u := by
  have hperm : (valued u.inOrder).Perm (valued u.params.params) := u.perm_inOrder.filterMap _
  rw [firstHasValue_iff]
  constructor
  · rintro ⟨params, hparams, -, hurl, hcount, htake⟩
    have htext := List.append_cancel_left (List.append_cancel_right hurl)
    refine ⟨?_, first_of_slotsText htext (hparams.trans hperm.symm)⟩
    by_cases hnil : params = []
    · rw [if_pos hnil] at hcount
      intro hmem
      refine List.count_eq_zero.mp hcount ?_
      rw [List.mem_append, List.mem_append]
      exact .inl (.inl hmem)
    · rw [← htake hnil]
      intro hmem
      have hne := List.mem_takeWhile_imp hmem
      simp at hne
  · rintro ⟨hpath, hfirst⟩
    have hplain : ∀ p ∈ valued u.inOrder,
        63 ∉ p.1 ∧ 63 ∉ percentEncode (okSpanChars B.urlEncode u.pt).contains p.2 :=
      fun p hp => question_not_mem_valued B.urlEncode u.pt hp
    rw [slotsText_of_first hfirst]
    refine ⟨valued u.inOrder, hperm, fun hcrypto => ?_, rfl, ?_, fun hne => ?_⟩
    · rw [UrlPrep.inOrder, if_pos hcrypto]
      refine (sortParams_sorts u.params.length_le).2.filterMap _ ?_
      intro p q hpq x hx y hy
      obtain ⟨a, -, rfl⟩ := Option.map_eq_some_iff.mp hx
      obtain ⟨b, -, rfl⟩ := Option.map_eq_some_iff.mp hy
      exact hpq
    · rw [List.count_append, List.count_append, List.count_eq_zero.mpr hpath,
        List.count_eq_zero.mpr (question_not_mem_signedText u.signing), count_queryText hplain,
        Nat.zero_add, Nat.add_zero]
    · cases hvalued : valued u.inOrder with
      | nil => exact absurd hvalued hne
      | cons p ps =>
          have hpass : ∀ c ∈ u.urlPath B, (c != 63) = true := by
            intro c hc
            rw [bne_iff_ne]
            rintro rfl
            exact hpath hc
          rw [List.append_assoc, List.takeWhile_append_of_pos hpass, queryText, List.cons_append,
            List.cons_append, List.takeWhile_cons_of_neg (by decide), List.append_nil]

/-- **The queries.**  In every preparation that fits and comes out with `PNR_STARTED`, the query is as
    it should be if and only if the URL in front of it has no question mark, and the parameter that is
    appended first has a value, or none has. -/
theorem queries_right {B : PrepBuild} (s s' : PrepState B) (u : UrlPrep)
    (hfits : ∀ p ∈ u.prepSteps, PrepFits s p)
    (hstarted : u.prepSteps.bind (prepareRequest s) = some (s', .started)) :
    ∃ url, s'.httpBuf.string = some url ∧
      (QueryRight B u url ↔ 63 ∉ u.urlPath B ∧ FirstHasValue u) := by
  obtain ⟨p, hp, -, hurl⟩ := u.exists_prepSteps B
  rw [hp, Option.bind_some] at hstarted
  obtain ⟨s'', rslt, heq, hright⟩ := preparedRight_prepareRequest (hfits p hp)
  rw [hstarted] at heq
  cases heq
  obtain ⟨⟨hzero, rest, hrest⟩, -⟩ := hright.whole rfl
  rw [List.drop_zero] at hrest
  refine ⟨p.url B, CharArray.string_of_bytes hrest hzero, ?_⟩
  rw [hurl]
  exact queryRight_iff B u

end Query

/-! ## Preparations -/

/-- `enum pubnub_tribool` -/
inductive PubnubTribool
  | pbccFalse | pbccTrue | pbccNotSet
  deriving DecidableEq

/-- What the preparations of URLs read of the context: `epochTime` is `none` if the clock has no
    time, and `signing` is `none` if there is no secret key. -/
structure UrlContext where
  cryptoApi : Bool
  subscribeKey : CText
  uname : Option CText
  userId : Option CText
  authToken : Option CText
  auth : Option CText
  epochTime : Option Nat
  signing : Option Signing

/-- The concatenation of two strings. -/
def CText.append (s t : CText) : CText :=
  ⟨s.text ++ t.text, by
    rw [List.mem_append, not_or]
    exact ⟨s.zero_not_mem, t.zero_not_mem⟩⟩

/-- `%u` -/
def decimalText (n : Nat) : CText :=
  ⟨(Nat.toDigits 10 n).map fun c => UInt8.ofNat c.toNat, by
    intro hzero
    obtain ⟨c, hc, heq⟩ := List.mem_map.mp hzero
    have hdigit := Nat.isDigit_of_mem_toDigits (by decide) (by decide) hc
    have hfirst : '0'.toNat = 48 := rfl
    have hlast : '9'.toNat = 57 := rfl
    rw [Char.isDigit_iff_toNat, hfirst, hlast] at hdigit
    have hval := congrArg UInt8.toNat heq
    rw [UInt8.toNat_ofNat', Nat.mod_eq_of_lt (by omega)] at hval
    have hnull : (0 : UInt8).toNat = 0 := rfl
    omega⟩

/-- `x == pbccTrue ? a : b`, if it is set. -/
def tribool (x : PubnubTribool) (a b : CText) : Option CText :=
  match x with
  | .pbccTrue => some a
  | .pbccFalse => some b
  | .pbccNotSet => none

/-- The parameters that are given, `none` where `ADD_URL_PARAM` is passed by. -/
def givenParams (entries : List (ParamKey × Option CText)) : List UrlParam :=
  entries.filterMap fun entry => entry.2.map fun val => ⟨entry.1, some val⟩

/-- The parameters of a preparation with at most eleven places for them. -/
def ParamList.ofEntries (entries : List (ParamKey × Option CText)) (h : entries.length ≤ 11)
    (hnodup : (entries.map fun entry => entry.1.text).Nodup) : ParamList where
  params := givenParams entries
  length_le := (List.length_filterMap_le ..).trans h
  nodup := by
    refine hnodup.sublist ?_
    rw [givenParams, List.map_filterMap]
    induction entries with
    | nil => exact .slnil
    | cons entry entries ih =>
        obtain ⟨key, val⟩ := entry
        have hrest := ih (Nat.le_of_succ_le h) (List.nodup_cons.mp hnodup).2
        cases val with
        | none =>
            rw [List.filterMap_cons_none rfl]
            exact hrest.cons _
        | some val =>
            exact hrest.cons_cons key.text

namespace UrlContext

/-- `ADD_URL_AUTH_PARAM`, in builds with cryptography only without a secret key. -/
def authParam (c : UrlContext) : Option CText :=
  if c.cryptoApi = true ∧ c.signing.isSome = true then none else c.authToken.orElse fun _ => c.auth

/-- `ADD_TS_TO_URL_PARAM` -/
def timestamp (c : UrlContext) : Option CText :=
  if c.cryptoApi then c.epochTime.map decimalText else none

end UrlContext

def paramKey (s : String) (h : 0 ∉ ascii s) (h' : 63 ∉ ascii s) : ParamKey := ⟨⟨ascii s, h⟩, h'⟩

lemma zero_not_mem_one : (0 : UInt8) ∉ ascii "1" := by decide

def oneText : CText := literalText "1" zero_not_mem_one

def zeroText : CText := literalText "0" (by decide)

def trueText : CText := literalText "true" (by decide)

def falseText : CText := literalText "false" (by decide)

/-- What stands in front of the channels. -/
def channelPath : CText := literalText "/channel/" (by decide)

def pnsdkKey : ParamKey := ⟨pnsdkText, by decide⟩

def uuidKey : ParamKey := paramKey "uuid" (by decide) (by decide)

def authKey : ParamKey := paramKey "auth" (by decide) (by decide)

def timestampKey : ParamKey := paramKey "timestamp" (by decide) (by decide)

def reverseKey : ParamKey := paramKey "reverse" (by decide) (by decide)

def includeMetaKey : ParamKey := paramKey "include_meta" (by decide) (by decide)

def startKey : ParamKey := paramKey "start" (by decide) (by decide)

def endKey : ParamKey := paramKey "end" (by decide) (by decide)

/-- `pbcc_history_prep` -/
def pbccHistoryPrep (c : UrlContext) (channel : CText) (count : Nat) (includeToken : Bool)
    (stringToken reverse includeMeta : PubnubTribool) (start stop : Option CText) : UrlPrep where
  path := ((literalText "/v2/history/sub-key/" (by decide)).append c.subscribeKey).append
    channelPath
  steps := [.encoded channel .none]
  params := .ofEntries
    [(pnsdkKey, c.uname), (uuidKey, c.userId),
      (paramKey "count" (by decide) (by decide),
        if count = 0 then none else some (decimalText count)),
      (paramKey "include_token" (by decide) (by decide),
        some (if includeToken then trueText else falseText)),
      (paramKey "stringtoken" (by decide) (by decide), tribool stringToken oneText zeroText),
      (authKey, c.authParam), (timestampKey, c.timestamp),
      (reverseKey, tribool reverse oneText zeroText),
      (includeMetaKey, tribool includeMeta oneText zeroText), (startKey, start), (endKey, stop)]
    (by simp) (by dsimp only [List.map]; decide)
  pt := .none
  cryptoApi := c.cryptoApi
  signing := c.signing

/-- `pbcc_get_actions_more_prep`, with the URL of the reply without its quotes. -/
def pbccGetActionsMorePrep (c : UrlContext) (more : CText) : UrlPrep where
  path := more
  steps := []
  params := .ofEntries
    [(pnsdkKey, c.uname), (uuidKey, c.userId), (authKey, c.authParam), (timestampKey, c.timestamp)]
    (by simp) (by dsimp only [List.map]; decide)
  pt := .none
  cryptoApi := c.cryptoApi
  signing := c.signing

/-- A context without keys for cryptography. -/
def aUrlContext : UrlContext where
  cryptoApi := true
  subscribeKey := literalText "demo" (by decide)
  uname := some cCoreText
  userId := some (literalText "me" (by decide))
  authToken := none
  auth := none
  epochTime := some 1700000000
  signing := none

/-- A history of a channel. -/
def aHistory : UrlPrep :=
  pbccHistoryPrep aUrlContext (literalText "ch" (by decide)) 10 false .pbccTrue .pbccNotSet .pbccNotSet
    none none

theorem queries_right_aHistory :
    ∃ s' : PrepState smallBuild, ∃ url, s'.httpBuf.string = some url ∧
      (QueryRight smallBuild aHistory url ↔
        63 ∉ aHistory.urlPath smallBuild ∧ FirstHasValue aHistory) := by
  have hresult : (aHistory.prepSteps.bind (prepareRequest freshPrep)).map (·.2) = some .started := by
    decide +kernel
  obtain ⟨⟨s', rslt⟩, hs', rfl⟩ := Option.map_eq_some_iff.mp hresult
  exact ⟨s', queries_right freshPrep s' aHistory (by decide +kernel) hs'⟩

/-- More actions, from a link of the server. -/
def moreActions : UrlPrep :=
  pbccGetActionsMorePrep aUrlContext
    (literalText "/v1/message-actions/demo/channel/ch?start=1&limit=2" (by decide))

/-- **The link of the server has a query already.**  The URL comes to have two question marks, and the
    signer would take the path to end at the first. -/
theorem queries_not_always_right :
    (moreActions.prepSteps.bind (prepareRequest freshPrep)).any (fun result =>
      result.2 == .started && result.1.httpBuf.string ==
        some (ascii ("/v1/message-actions/demo/channel/ch?start=1&limit=2" ++
          "?pnsdk=c-core&timestamp=1700000000&uuid=me"))) = true ∧
    ¬ QueryRight smallBuild moreActions
      (ascii ("/v1/message-actions/demo/channel/ch?start=1&limit=2" ++
        "?pnsdk=c-core&timestamp=1700000000&uuid=me")) := by
  refine ⟨by decide +kernel, ?_⟩
  rintro ⟨params, -, -, -, hcount, -⟩
  have htwo : (ascii ("/v1/message-actions/demo/channel/ch?start=1&limit=2" ++
      "?pnsdk=c-core&timestamp=1700000000&uuid=me")).count 63 = 2 := by decide +kernel
  rw [htwo] at hcount
  split at hcount
  · cases hcount
  · cases hcount

end PubNub
