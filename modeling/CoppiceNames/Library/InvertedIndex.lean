import CoppiceNames.Library.OrderedMap

/-!
# Inverted indexes

An inverted index files each value under at most one key: a map from keys to nonempty sets of
values. What it should contain is a partial function `f` from values to keys, and `Indexes ix f`
says that it contains exactly that, with no empty set left behind. Such an index is unique
(`Indexes.unique`), so an index maintained entry by entry equals one built from scratch as soon as
both are indexes of the same function.

`replaceEntry` moves one value between keys and is the pointwise update of `f`
(`Indexes.replaceEntry`). `upTo` lists the values filed at or below a key, in key order and then in
value order.
-/

open Std

/-- A map from keys to sets of values. -/
abbrev InvertedIndex (K V : Type) [Ord K] [Ord V] := OrderedMap K (OrderedSet V)

namespace InvertedIndex

variable {K V : Type} [Ord K] [TransOrd K] [Ord V] [TransOrd V]

/-- The values filed under a key. -/
def bucket (ix : InvertedIndex K V) (k : K) : OrderedSet V :=
  (ix[k]?).getD ∅

/-- File a value under a key. -/
def addEntry (ix : InvertedIndex K V) (k : K) (v : V) : InvertedIndex K V :=
  ix.insert k ((ix.bucket k).insert v)

/-- Remove a value from a key's set, and the set with its last value. -/
def removeEntry (ix : InvertedIndex K V) (k : K) (v : V) : InvertedIndex K V :=
  match ix[k]? with
  | none => ix
  | some values => if (values.erase v).isEmpty then ix.erase k else ix.insert k (values.erase v)

/-- Move a value from an old key to a new one, either of which may be missing. -/
def replaceEntry (ix : InvertedIndex K V) (v : V) (old new : Option K) : InvertedIndex K V :=
  let ix := old.elim ix fun k ↦ ix.removeEntry k v
  new.elim ix fun k ↦ ix.addEntry k v

/-- The values filed at or below a key, in key order. -/
def upTo (ix : InvertedIndex K V) (k : K) : List V :=
  (ix.toList.filter fun e ↦ (compare e.1 k).isLE).flatMap fun e ↦ e.2.toList

/-- The index files exactly the values of `f`, each under its key, and has no empty set. -/
structure Indexes (ix : InvertedIndex K V) (f : V → Option K) : Prop where
  mem_iff : ∀ k v, v ∈ ix.bucket k ↔ f v = some k
  nonempty : ∀ k : K, ix[k]? ≠ some (∅ : OrderedSet V)

theorem Indexes.getElem?_eq_some {ix : InvertedIndex K V} {f : V → Option K} (h : Indexes ix f)
    {k : K} {values : OrderedSet V} (hk : ix[k]? = some values) {v : V} :
    v ∈ values ↔ f v = some k := by
  rw [← h.mem_iff, bucket, hk]
  rfl

theorem Indexes.empty : Indexes (∅ : InvertedIndex K V) fun _ ↦ none where
  mem_iff k v := by simp [bucket]
  nonempty k := by simp

section Lawful

variable [LawfulEqOrd K] [LawfulEqOrd V]

/-- **An index is determined by what it files.** -/
theorem Indexes.unique {ix ix' : InvertedIndex K V} {f : V → Option K} (h : Indexes ix f)
    (h' : Indexes ix' f) : ix = ix' := by
  have hbucket : ∀ k, ix.bucket k = ix'.bucket k := fun k ↦
    ExtTreeSet.ext_mem fun v ↦ (h.mem_iff k v).trans (h'.mem_iff k v).symm
  apply ExtTreeMap.ext_getElem?
  intro k
  have hk := hbucket k
  rw [bucket, bucket] at hk
  -- a missing set and a present one differ, because a present one is not empty
  rcases hix : ix[k]? with - | values <;> rcases hix' : ix'[k]? with - | values' <;>
    rw [hix, hix'] at hk
  · rw [Option.getD_none, Option.getD_some] at hk
    exact absurd (hk ▸ hix') (h'.nonempty k)
  · rw [Option.getD_none, Option.getD_some] at hk
    exact absurd (hk ▸ hix) (h.nonempty k)
  · exact congrArg some hk

/-! ### Maintenance -/

section Maintenance

variable [DecidableEq K] [DecidableEq V]

omit [TransOrd V] [LawfulEqOrd V] [DecidableEq V] in
theorem bucket_insert (ix : InvertedIndex K V) (k a : K) (values : OrderedSet V) :
    bucket (ix.insert k values) a = if k = a then values else ix.bucket a := by
  rw [bucket, ExtTreeMap.getElem?_insert]
  by_cases h : k = a
  · simp [h]
  · simp [h, bucket]

omit [TransOrd V] [LawfulEqOrd V] [DecidableEq V] in
theorem bucket_erase (ix : InvertedIndex K V) (k a : K) :
    bucket (ix.erase k) a = if k = a then ∅ else ix.bucket a := by
  rw [bucket, ExtTreeMap.getElem?_erase]
  by_cases h : k = a
  · simp [h]
  · simp [h, bucket]

theorem Indexes.addEntry {ix : InvertedIndex K V} {f : V → Option K} (h : Indexes ix f) {v : V}
    (hv : f v = none) (k : K) : Indexes (ix.addEntry k v) (Function.update f v (some k)) where
  mem_iff a w := by
    rw [InvertedIndex.addEntry, bucket_insert]
    by_cases hka : k = a
    · subst hka
      rw [if_pos rfl, ExtTreeSet.mem_insert, h.mem_iff, LawfulEqCmp.compare_eq_iff_eq]
      by_cases hvw : v = w
      · subst hvw
        simp
      · simp [hvw, Function.update_of_ne (Ne.symm hvw)]
    · rw [if_neg hka, h.mem_iff]
      by_cases hvw : v = w
      · subst hvw
        simp [hv, hka]
      · rw [Function.update_of_ne (Ne.symm hvw)]
  nonempty a := by
    rw [InvertedIndex.addEntry, ExtTreeMap.getElem?_insert]
    split
    · intro heq
      have hmem : v ∈ (ix.bucket k).insert v := by simp
      rw [Option.some.inj heq] at hmem
      exact ExtTreeSet.not_mem_empty hmem
    · exact h.nonempty a

theorem Indexes.removeEntry {ix : InvertedIndex K V} {f : V → Option K} (h : Indexes ix f) {v : V}
    {k : K} (hv : f v = some k) : Indexes (ix.removeEntry k v) (Function.update f v none) := by
  obtain ⟨values, hk⟩ : ∃ values, ix[k]? = some values := by
    have hmem := (h.mem_iff k v).2 hv
    rw [bucket] at hmem
    rcases hix : ix[k]? with - | values
    · rw [hix] at hmem
      exact absurd hmem ExtTreeSet.not_mem_empty
    · exact ⟨values, rfl⟩
  have hvalues : ∀ w, w ∈ values.erase v ↔ v ≠ w ∧ f w = some k := fun w ↦ by
    rw [ExtTreeSet.mem_erase, h.getElem?_eq_some hk, ne_eq, ne_eq, LawfulEqCmp.compare_eq_iff_eq]
  have hbucket : ∀ a, (ix.removeEntry k v).bucket a = if k = a then values.erase v
      else ix.bucket a := by
    intro a
    rw [InvertedIndex.removeEntry, hk]
    dsimp only
    split
    · rename_i hempty
      rw [bucket_erase, ExtTreeSet.isEmpty_iff.1 hempty]
    · exact bucket_insert ix k a _
  refine ⟨fun a w ↦ ?_, fun a ↦ ?_⟩
  · rw [hbucket]
    by_cases hvw : v = w
    · subst hvw
      rw [Function.update_self]
      split
      · simp [hvalues]
      · rename_i hka
        simp [h.mem_iff, hv, hka]
    · rw [Function.update_of_ne (Ne.symm hvw)]
      split
      · rename_i hka
        subst hka
        simp [hvalues, hvw]
      · rw [h.mem_iff]
  · rw [InvertedIndex.removeEntry, hk]
    dsimp only
    split
    · rw [ExtTreeMap.getElem?_erase]
      split
      · simp
      · exact h.nonempty a
    · rename_i hne
      rw [ExtTreeMap.getElem?_insert]
      split
      · intro heq
        rw [Option.some.inj heq] at hne
        exact hne rfl
      · exact h.nonempty a

/-- **Moving one value is the pointwise update.** -/
theorem Indexes.replaceEntry {ix : InvertedIndex K V} {f : V → Option K} (h : Indexes ix f) (v : V)
    (new : Option K) : Indexes (ix.replaceEntry v (f v) new) (Function.update f v new) := by
  have hremoved : Indexes ((f v).elim ix fun k ↦ ix.removeEntry k v)
    (Function.update f v none) := by
    rcases hv : f v with - | k
    · have hsame : Function.update f v none = f := by rw [← hv, Function.update_eq_self]
      rw [hsame]
      exact h
    · exact h.removeEntry hv
  rw [InvertedIndex.replaceEntry]
  rcases new with - | k
  · exact hremoved
  · have hadded := hremoved.addEntry (Function.update_self v none f) k
    rwa [Function.update_idem] at hadded

/-- An index of the records of a map follows a write of the map. -/
theorem Indexes.put {R : Type} {ix : InvertedIndex K V} {m : OrderedMap V R}
    (key : V → R → Option K) (h : ix.Indexes fun v ↦ m[v]?.bind (key v)) (v : V) (r : Option R) :
    (ix.replaceEntry v (m[v]?.bind (key v)) (r.bind (key v))).Indexes fun w ↦
      (OrderedMap.put m v r)[w]?.bind (key w) := by
  have hupdate : (fun w ↦ (OrderedMap.put m v r)[w]?.bind (key w)) =
      Function.update (fun w ↦ m[w]?.bind (key w)) v (r.bind (key v)) := by
    funext w
    rw [OrderedMap.getElem?_put]
    by_cases hvw : v = w
    · subst hvw
      simp
    · rw [if_neg hvw, Function.update_of_ne (Ne.symm hvw)]
  rw [hupdate]
  exact h.replaceEntry v (r.bind (key v))

/-- File a list of values, each under its own key. -/
def build (ix : InvertedIndex K V) (f : V → Option K) (values : List V) : InvertedIndex K V :=
  values.foldl (fun ix v ↦ (f v).elim ix fun k ↦ ix.addEntry k v) ix

/-- Filing distinct values one by one indexes them all. -/
theorem Indexes.build {ix : InvertedIndex K V} {g : V → Option K} (h : Indexes ix g)
    (f : V → Option K) {values : List V} (hnodup : values.Nodup) (hnew : ∀ v ∈ values, g v = none) :
    Indexes (ix.build f values) fun v ↦ if v ∈ values then f v else g v := by
  induction values generalizing ix g with
  | nil => simpa [InvertedIndex.build] using h
  | cons v values ih =>
    rw [List.nodup_cons] at hnodup
    have hv : g v = none := hnew v List.mem_cons_self
    have hstep : Indexes ((f v).elim ix fun k ↦ ix.addEntry k v) (Function.update g v (f v)) := by
      rcases hfv : f v with - | k
      · have hsame : Function.update g v none = g := by rw [← hv, Function.update_eq_self]
        rw [hsame]
        exact h
      · exact h.addEntry hv k
    have hrest := ih hstep hnodup.2 fun w hw ↦ by
      have hne : w ≠ v := fun heq ↦ hnodup.1 (heq ▸ hw)
      rw [Function.update_of_ne hne]
      exact hnew w (List.mem_cons_of_mem v hw)
    have hfun : (fun w ↦ if w ∈ v :: values then f w else g w) =
        fun w ↦ if w ∈ values then f w else Function.update g v (f v) w := by
      funext w
      by_cases hvw : w = v
      · subst hvw
        simp
      · simp [hvw]
    rw [hfun]
    exact hrest

/-- Filing the keys of a map, each by its record, indexes the map. -/
theorem Indexes.build_keys {R : Type} {m : OrderedMap V R} {key : V → R → Option K}
    {f : V → Option K} (hf : ∀ v r, m[v]? = some r → f v = key v r) :
    ((∅ : InvertedIndex K V).build f m.keys).Indexes fun v ↦ m[v]?.bind (key v) := by
  have hbuild := Indexes.empty.build f (ExtTreeMap.nodup_keys : m.keys.Nodup) fun _ _ ↦ rfl
  have hfun : (fun v ↦ m[v]?.bind (key v)) = fun v ↦ if v ∈ m.keys then f v else none := by
    funext v
    simp only [ExtTreeMap.mem_keys, ExtTreeMap.mem_iff_isSome_getElem?]
    rcases hv : m[v]? with - | r
    · simp
    · simp [hf v r hv]
  rw [hfun]
  exact hbuild

end Maintenance

/-! ### Listing -/

theorem Indexes.mem_upTo {ix : InvertedIndex K V} {f : V → Option K} (h : Indexes ix f) {k : K}
    {v : V} : v ∈ ix.upTo k ↔ ∃ a, f v = some a ∧ (compare a k).isLE := by
  simp only [upTo, List.mem_flatMap, List.mem_filter, ExtTreeSet.mem_toList, Prod.exists]
  constructor
  · rintro ⟨a, values, ⟨hmem, hle⟩, hv⟩
    have ha : ix[a]? = some values := ExtTreeMap.mem_toList_iff_getElem?_eq_some.1 hmem
    exact ⟨a, (h.getElem?_eq_some ha).1 hv, hle⟩
  · rintro ⟨a, hv, hle⟩
    have hmem := (h.mem_iff a v).2 hv
    rw [bucket] at hmem
    rcases ha : ix[a]? with - | values
    · rw [ha] at hmem
      exact absurd hmem ExtTreeSet.not_mem_empty
    · rw [ha] at hmem
      exact ⟨a, values, ⟨ExtTreeMap.mem_toList_iff_getElem?_eq_some.2 ha, hle⟩, hmem⟩

/-- A value is listed once: it is filed under one key. -/
theorem Indexes.nodup_upTo {ix : InvertedIndex K V} {f : V → Option K} (h : Indexes ix f) (k : K) :
    (ix.upTo k).Nodup := by
  rw [upTo, List.nodup_iff_pairwise_ne, List.pairwise_flatMap]
  refine ⟨fun e _ ↦ ?_, ?_⟩
  · have hascending : OrderedMap.Ascending id e.2.toList := e.2.ordered_toList
    have hnodup := hascending.keys_nodup
    rw [List.map_id] at hnodup
    exact hnodup
  · refine ((OrderedMap.toList_pairwise_ne ix).filter _).imp_of_mem ?_
    intro e e' he he' hne v hv w hw heq
    subst heq
    have hkey : ∀ {e : K × OrderedSet V}, e ∈ ix.toList.filter (fun e ↦ (compare e.1 k).isLE) →
        v ∈ e.2.toList → f v = some e.1 := fun he hv ↦
      (h.getElem?_eq_some (ExtTreeMap.mem_toList_iff_getElem?_eq_some.1 (List.mem_filter.1 he).1)).1
        (ExtTreeSet.mem_toList.1 hv)
    exact hne (Option.some.inj ((hkey he hv).symm.trans (hkey he' hw)))

/-- When only one key at or below `k` has values, they are listed in value order. -/
theorem Indexes.ascending_upTo {ix : InvertedIndex K V} {f : V → Option K}
    (h : Indexes ix f) {k : K}
    (hone : ∀ v w a b, f v = some a → f w = some b → (compare a k).isLE → (compare b k).isLE →
      a = b) : OrderedMap.Ascending id (ix.upTo k) := by
  rw [upTo, OrderedMap.Ascending, List.pairwise_flatMap]
  refine ⟨fun e _ ↦ e.2.ordered_toList, ?_⟩
  refine ((OrderedMap.toList_pairwise_ne ix).filter _).imp_of_mem ?_
  intro e e' he he' hne v hv w hw
  have hkey : ∀ {e : K × OrderedSet V}, e ∈ ix.toList.filter (fun e ↦ (compare e.1 k).isLE) →
      ∀ {v}, v ∈ e.2.toList → f v = some e.1 ∧ (compare e.1 k).isLE := fun he v hv ↦
    ⟨(h.getElem?_eq_some (ExtTreeMap.mem_toList_iff_getElem?_eq_some.1 (List.mem_filter.1 he).1)).1
      (ExtTreeSet.mem_toList.1 hv), (List.mem_filter.1 he).2⟩
  obtain ⟨hv₁, hv₂⟩ := hkey he hv
  obtain ⟨hw₁, hw₂⟩ := hkey he' hw
  exact absurd (hone v w e.1 e'.1 hv₁ hw₁ hv₂ hw₂) hne

end Lawful

end InvertedIndex
