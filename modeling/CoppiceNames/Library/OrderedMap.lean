import CoppiceNames.Library.Checked

/-!
# Ordered maps

Extensional ordered maps (`Std.ExtTreeMap`) with the one update a keyed store needs: `put k v`
writes `some v` and deletes at `none`. A map is then its lookup function, and `put` is the pointwise
update of that function (`getElem?_put`).

Two bulk updates are built from it. `putAll` writes a table of optional values; written from the
entries of another map it overrides the first map exactly on the second's keys
(`getElem?_putAll_toList`). `updateAll` visits a list of keys and rewrites or deletes the record it
finds at each; on a list without repetition every visited record is rewritten once
(`getElem?_updateAll`), so the order of the visits does not matter.
-/

open Std

/-- A map with ordered keys and deterministic iteration. -/
abbrev OrderedMap (K V : Type) [Ord K] := ExtTreeMap K V

/-- A set with ordered elements and deterministic iteration. -/
abbrev OrderedSet (K : Type) [Ord K] := ExtTreeSet K

namespace OrderedMap

variable {K V : Type} [Ord K] [TransOrd K]

/-- Write a value, or delete the key. -/
def put (m : OrderedMap K V) (k : K) (v : Option V) : OrderedMap K V :=
  match v with
  | some v => m.insert k v
  | none => m.erase k

/-- Write every entry of a table of optional values, in order. -/
def putAll (m : OrderedMap K V) (entries : List (K × Option V)) : OrderedMap K V :=
  entries.foldl (fun m e ↦ put m e.1 e.2) m

/-- Visit the keys in order, rewriting or deleting the record found at each. -/
def updateAll (m : OrderedMap K V) (keys : List K) (g : K → V → Option V) : OrderedMap K V :=
  keys.foldl (fun m k ↦ put m k (m[k]?.bind (g k))) m

/-- Parse stored entries into a map, refusing a key that is already there. -/
def loadAll {A ε : Type} (parse : A → Except ε (K × V)) (duplicate : ε) (m : OrderedMap K V) :
    List A → Except ε (OrderedMap K V)
  | [] => .ok m
  | a :: rest =>
    match parse a with
    | .error e => .error e
    | .ok (k, v) =>
      if m.contains k then .error duplicate else loadAll parse duplicate (m.insert k v) rest

/-! ### Ascending lists -/

/-- In strictly ascending key order. -/
def Ascending {A : Type} (key : A → K) (l : List A) : Prop :=
  l.Pairwise fun a b ↦ compare (key a) (key b) = .lt

section Ascending

variable {A : Type} {key : A → K}

theorem Ascending.keys_nodup {l : List A} (hl : Ascending key l) : (l.map key).Nodup := by
  refine List.pairwise_map.2 (List.Pairwise.imp (fun {a b} hlt heq ↦ ?_) hl)
  have hself : compare (key a) (key a) = .eq := ReflCmp.compare_self
  rw [← heq, hself] at hlt
  cases hlt

/-- A list in strictly ascending order is determined by its members. -/
theorem Ascending.eq_of_mem_iff {l l' : List A} (hl : Ascending key l) (hl' : Ascending key l')
    (h : ∀ a, a ∈ l ↔ a ∈ l') : l = l' := by
  have hperm : l.Perm l' :=
    (List.perm_ext_iff_of_nodup hl.keys_nodup.of_map hl'.keys_nodup.of_map).2 h
  refine hperm.eq_of_pairwise (fun a b _ _ hab hba ↦ ?_) hl hl'
  exact absurd hba (OrientedCmp.not_lt_of_lt hab)

/-- A list with the members of an ascending one and with distinct keys is as long, and it is that
list when it is ascending. -/
theorem Ascending.eq_iff_of_mem_iff {l l' : List A} (hl' : Ascending key l')
    (hl : (l.map key).Nodup) (h : ∀ a, a ∈ l ↔ a ∈ l') :
    l.length = l'.length ∧ (l = l' ↔ Ascending key l) := by
  have hperm : l.Perm l' := (List.perm_ext_iff_of_nodup hl.of_map hl'.keys_nodup.of_map).2 h
  refine ⟨hperm.length_eq, fun heq ↦ ?_, fun hascending ↦ hascending.eq_of_mem_iff hl' h⟩
  rw [heq]
  exact hl'

omit [TransOrd K] in
theorem Ascending.filter {l : List A} (hl : Ascending key l) (p : A → Bool) :
    Ascending key (l.filter p) :=
  List.Pairwise.filter p hl

omit [TransOrd K] in
/-- Entries chosen by a condition that larger keys inherit come last. -/
theorem Ascending.filter_append {l : List A} (hl : Ascending key l) {p : A → Bool}
    (hp : ∀ a b, compare (key a) (key b) = .lt → p a = true → p b = true) :
    (l.filter fun a ↦ !p a) ++ l.filter p = l := by
  induction l with
  | nil => rfl
  | cons a l ih =>
    obtain ⟨hfirst, hrest⟩ := List.pairwise_cons.1 hl
    rcases ha : p a with - | -
    · rw [List.filter_cons_of_pos (by simp [ha]), List.filter_cons_of_neg (by simp [ha]),
        List.cons_append, ih hrest]
    · -- from here on all entries are chosen
      have hall : ∀ b ∈ a :: l, p b = true := by
        intro b hb
        rcases List.mem_cons.1 hb with rfl | hb
        · exact ha
        · exact hp a b (hfirst b hb) ha
      rw [List.filter_eq_self.2 hall, List.filter_eq_nil_iff.2 fun b hb ↦ by simp [hall b hb],
        List.nil_append]

theorem ascending_toList (m : OrderedMap K V) : Ascending Prod.fst m.toList :=
  m.ordered_keys_toList

theorem mem_of_getElem?_eq_some {m : OrderedMap K V} {k : K} {v : V} (h : m[k]? = some v) :
    k ∈ m := by
  rw [ExtTreeMap.mem_iff_isSome_getElem?, h]
  rfl

theorem exists_getElem?_of_mem {m : OrderedMap K V} {k : K} (h : k ∈ m) : ∃ v, m[k]? = some v := by
  rwa [ExtTreeMap.mem_iff_isSome_getElem?, Option.isSome_iff_exists] at h

/-- A list of keys that are all present is the list of keys of its entries. -/
theorem exists_entries {m : OrderedMap K V} {keys : List K} (h : ∀ k ∈ keys, k ∈ m) :
    ∃ entries : List (K × V), entries.map Prod.fst = keys ∧ ∀ e ∈ entries, m[e.1]? = some e.2 := by
  induction keys with
  | nil => exact ⟨[], rfl, by simp⟩
  | cons k keys ih =>
    obtain ⟨entries, hkeys, hentries⟩ := ih fun k' hk' ↦ h k' (List.mem_cons_of_mem k hk')
    obtain ⟨v, hv⟩ := exists_getElem?_of_mem (h k List.mem_cons_self)
    refine ⟨(k, v) :: entries, by simp [hkeys], ?_⟩
    rintro e (_ | ⟨_, he⟩)
    · exact hv
    · exact hentries e he

/-- Looking up present keys succeeds. -/
theorem mapM_lookup {m : OrderedMap K V} {entries : List (K × V)}
    (h : ∀ e ∈ entries, m[e.1]? = some e.2) (g : V → A) :
    ((entries.map Prod.fst).mapM fun k ↦ m[k]?.map fun v ↦ (k, g v)) =
      some (entries.map fun e ↦ (e.1, g e.2)) := by
  induction entries with
  | nil => rfl
  | cons e entries ih =>
    have he : m[e.1]? = some e.2 := h e List.mem_cons_self
    rw [List.map_cons, List.mapM_cons, he, ih fun e' he' ↦ h e' (List.mem_cons_of_mem e he')]
    rfl

end Ascending

variable [LawfulEqOrd K]

/-! ### Single writes -/

/-- What is found after an insertion: the value that was inserted, or an older one under another
key. -/
theorem getElem?_insert_eq_some_iff {m : OrderedMap K V} {k a : K} {v b : V} :
    (m.insert k v)[a]? = some b ↔ (k = a ∧ v = b) ∨ (k ≠ a ∧ m[a]? = some b) := by
  rw [ExtTreeMap.getElem?_insert]
  by_cases h : k = a
  · rw [if_pos (LawfulEqCmp.compare_eq_iff_eq.2 h), Option.some_inj]
    exact ⟨fun hv ↦ Or.inl ⟨h, hv⟩, fun hfound ↦ hfound.elim And.right fun hother ↦
      absurd h hother.1⟩
  · rw [if_neg fun heq ↦ h (LawfulEqCmp.compare_eq_iff_eq.1 heq)]
    exact ⟨fun hold ↦ Or.inr ⟨h, hold⟩, fun hfound ↦ hfound.elim (fun hsame ↦ absurd hsame.1 h)
      And.right⟩

theorem getElem?_insert_of_ne {m : OrderedMap K V} {k a : K} (h : k ≠ a) (v : V) :
    (m.insert k v)[a]? = m[a]? := by
  rw [ExtTreeMap.getElem?_insert, if_neg fun heq ↦ h (LawfulEqCmp.compare_eq_iff_eq.1 heq)]

section Writes

variable [DecidableEq K]

@[simp, grind =]
theorem getElem?_put (m : OrderedMap K V) (k a : K) (v : Option V) :
    (put m k v)[a]? = if k = a then v else m[a]? := by
  cases v with
  | some v => simp [put, ExtTreeMap.getElem?_insert]
  | none => simp [put, ExtTreeMap.getElem?_erase]

@[simp]
theorem put_self (m : OrderedMap K V) (k : K) : put m k m[k]? = m := by
  apply ExtTreeMap.ext_getElem?
  intro a
  rw [getElem?_put]
  split
  · rename_i h
    rw [h]
  · rfl

theorem insert_erase (m : OrderedMap K V) (k : K) (v : V) :
    (m.erase k).insert k v = m.insert k v := by
  apply ExtTreeMap.ext_getElem?
  intro a
  by_cases h : k = a <;> simp [ExtTreeMap.getElem?_insert, ExtTreeMap.getElem?_erase, h]

theorem erase_of_getElem?_eq_none {m : OrderedMap K V} {k : K} (h : m[k]? = none) :
    m.erase k = m := by
  have hself := put_self m k
  rwa [h] at hself

/-! ### Tables -/

/-- A table without a key leaves it alone. -/
theorem getElem?_putAll_of_not_mem {m : OrderedMap K V} {entries : List (K × Option V)} {k : K}
    (h : ∀ e ∈ entries, e.1 ≠ k) : (putAll m entries)[k]? = m[k]? := by
  induction entries generalizing m with
  | nil => rfl
  | cons e entries ih =>
    rw [putAll, List.foldl_cons]
    refine (ih fun e' he' ↦ h e' (List.mem_cons_of_mem e he')).trans ?_
    rw [getElem?_put, if_neg (h e List.mem_cons_self)]

/-- Among distinct keys, an entry's key gets its value. -/
theorem getElem?_putAll_of_mem {m : OrderedMap K V} {entries : List (K × Option V)}
    (hdistinct : entries.Pairwise fun a b ↦ a.1 ≠ b.1) {k : K} {v : Option V}
    (h : (k, v) ∈ entries) : (putAll m entries)[k]? = v := by
  induction entries generalizing m with
  | nil => exact absurd h List.not_mem_nil
  | cons e entries ih =>
    rw [List.pairwise_cons] at hdistinct
    rw [putAll, List.foldl_cons]
    rcases List.mem_cons.1 h with rfl | h
    · refine (getElem?_putAll_of_not_mem fun e' he' heq ↦ hdistinct.1 e' he' heq.symm).trans ?_
      rw [getElem?_put, if_pos rfl]
    · exact ih hdistinct.2 h

omit [LawfulEqOrd K] [DecidableEq K] in
theorem toList_pairwise_ne (m : OrderedMap K V) : m.toList.Pairwise fun a b ↦ a.1 ≠ b.1 := by
  refine m.distinct_keys_toList.imp fun h heq ↦ h ?_
  rw [heq]
  exact ReflCmp.compare_self

/-- Writing the entries of a table overrides the map exactly on the table's keys. -/
theorem getElem?_putAll_toList (m : OrderedMap K V) (table : OrderedMap K (Option V)) (k : K) :
    (putAll m table.toList)[k]? = (table[k]?).getD m[k]? := by
  rcases h : table[k]? with - | v
  · refine getElem?_putAll_of_not_mem fun e he heq ↦ ?_
    have hsome : table[e.1]? = some e.2 := ExtTreeMap.mem_toList_iff_getElem?_eq_some.1 he
    rw [heq, h] at hsome
    cases hsome
  · exact getElem?_putAll_of_mem (toList_pairwise_ne table)
      (ExtTreeMap.mem_toList_iff_getElem?_eq_some.2 h)

theorem getElem?_putAll_map_toList (m : OrderedMap K V) (table : OrderedMap K A) (f : A → Option V)
    (k : K) : (putAll m (table.toList.map fun e ↦ (e.1, f e.2)))[k]? =
      (table[k]?.map f).getD m[k]? := by
  have hmap : (table.toList.map fun e ↦ (e.1, f e.2)) = (table.map fun _ a ↦ f a).toList := by
    rw [ExtTreeMap.toList_map]
  rw [hmap, getElem?_putAll_toList, ExtTreeMap.getElem?_map]

/-! ### Loading stored entries -/

omit [DecidableEq K] in
/-- Entries whose keys are new and distinct load one after the other. -/
theorem loadAll_map {A ε : Type} {parse : A → Except ε (K × V)} (duplicate : ε) {f : K × V → A}
    {m : OrderedMap K V} {entries : List (K × V)}
    (hdistinct : entries.Pairwise fun a b ↦ a.1 ≠ b.1) (hnew : ∀ e ∈ entries, e.1 ∉ m)
    (hparse : ∀ e ∈ entries, parse (f e) = .ok e) :
    loadAll parse duplicate m (entries.map f) =
      .ok (entries.foldl (fun m e ↦ m.insert e.1 e.2) m) := by
  induction entries generalizing m with
  | nil => rfl
  | cons e entries ih =>
    rw [List.pairwise_cons] at hdistinct
    have hnot : m.contains e.1 = false := by
      rw [Bool.eq_false_iff, ne_eq, ExtTreeMap.contains_iff_mem]
      exact hnew e List.mem_cons_self
    rw [List.map_cons, loadAll, hparse e List.mem_cons_self]
    dsimp only
    rw [hnot, if_neg Bool.false_ne_true]
    refine ih hdistinct.2 (fun e' he' hmem ↦ ?_) fun e' he' ↦ hparse e' (List.mem_cons_of_mem e he')
    rw [ExtTreeMap.mem_insert, LawfulEqCmp.compare_eq_iff_eq] at hmem
    rcases hmem with heq | hmem
    · exact hdistinct.1 e' he' heq
    · exact hnew e' (List.mem_cons_of_mem e he') hmem

/-- **A stored map loads as it was**, when every stored entry parses back. -/
theorem loadAll_toList {A ε : Type} {parse : A → Except ε (K × V)} (duplicate : ε) {f : K × V → A}
    (m : OrderedMap K V) (hparse : ∀ e ∈ m.toList, parse (f e) = .ok e) :
    loadAll parse duplicate ∅ (m.toList.map f) = .ok m := by
  rw [loadAll_map duplicate (toList_pairwise_ne m) (fun e _ ↦ ExtTreeMap.not_mem_empty) hparse]
  have hput : ∀ (entries : List (K × V)) (base : OrderedMap K V),
      entries.foldl (fun m e ↦ m.insert e.1 e.2) base =
        putAll base (entries.map fun e ↦ (e.1, some e.2)) := by
    intro entries
    induction entries with
    | nil => exact fun _ ↦ rfl
    | cons e entries ih => exact fun base ↦ ih (base.insert e.1 e.2)
  rw [hput]
  refine congrArg Except.ok (ExtTreeMap.ext_getElem? fun k ↦ ?_)
  rcases hk : m[k]? with - | v
  · rw [getElem?_putAll_of_not_mem, ExtTreeMap.getElem?_empty]
    intro e he heq
    rw [List.mem_map] at he
    obtain ⟨e', he', rfl⟩ := he
    have hsome : m[e'.1]? = some e'.2 := ExtTreeMap.mem_toList_iff_getElem?_eq_some.1 he'
    rw [show e'.1 = k from heq, hk] at hsome
    exact absurd hsome (by simp)
  · refine getElem?_putAll_of_mem ?_ ?_
    · rw [List.pairwise_map]
      exact toList_pairwise_ne m
    · exact List.mem_map.2 ⟨(k, v), ExtTreeMap.mem_toList_iff_getElem?_eq_some.2 hk, rfl⟩

omit [DecidableEq K] in
/-- What a loaded map holds: the entries that were parsed into it. -/
theorem getElem?_loadAll {A ε : Type} {parse : A → Except ε (K × V)} {duplicate : ε}
    {m m' : OrderedMap K V} {entries : List A} (h : loadAll parse duplicate m entries = .ok m')
    {k : K} {v : V} :
    m'[k]? = some v ↔ m[k]? = some v ∨ ∃ a ∈ entries, parse a = .ok (k, v) := by
  induction entries generalizing m with
  | nil =>
    rw [loadAll, Except.ok.injEq] at h
    simp [h]
  | cons a rest ih =>
    rw [loadAll] at h
    split at h
    · exact absurd h (by simp)
    rename_i k' v' hparse
    split at h
    · exact absurd h (by simp)
    rename_i hnew
    have hnone : m[k']? = none := by
      refine ExtTreeMap.getElem?_eq_none ?_
      rwa [← ExtTreeMap.contains_iff_mem]
    rw [ih h, ExtTreeMap.getElem?_insert]
    simp only [List.mem_cons, exists_eq_or_imp, hparse, Except.ok.injEq, Prod.mk.injEq,
      LawfulEqCmp.compare_eq_iff_eq]
    by_cases hkey : k' = k
    · rw [← hkey, hnone]
      simp
    · simp [hkey]

omit [DecidableEq K] [LawfulEqOrd K] in
/-- Every entry of a list that loads is parsed. -/
theorem parse_of_loadAll {A ε : Type} {parse : A → Except ε (K × V)} {duplicate : ε}
    {m m' : OrderedMap K V} {entries : List A} (h : loadAll parse duplicate m entries = .ok m')
    {a : A} (ha : a ∈ entries) : ∃ e, parse a = .ok e := by
  induction entries generalizing m with
  | nil => exact absurd ha List.not_mem_nil
  | cons b rest ih =>
    rw [loadAll] at h
    split at h
    · exact absurd h (by simp)
    rename_i k v hparse
    split at h
    · exact absurd h (by simp)
    rcases List.mem_cons.1 ha with rfl | hrest
    · exact ⟨(k, v), hparse⟩
    · exact ih h hrest

omit [DecidableEq K] in
/-- A list that loads is parsed to entries with new and distinct keys. -/
theorem exists_parsed_of_loadAll {A ε : Type} {parse : A → Except ε (K × V)} {duplicate : ε}
    {m m' : OrderedMap K V} {stored : List A} (h : loadAll parse duplicate m stored = .ok m') :
    ∃ parsed, List.Forall₂ (fun a e ↦ parse a = .ok e) stored parsed ∧
      (parsed.Pairwise fun a b ↦ a.1 ≠ b.1) ∧ ∀ e ∈ parsed, e.1 ∉ m := by
  induction stored generalizing m with
  | nil => exact ⟨[], .nil, .nil, fun e he ↦ absurd he List.not_mem_nil⟩
  | cons a rest ih =>
    rw [loadAll] at h
    split at h
    · exact absurd h (by simp)
    rename_i k v hparse
    split at h
    · exact absurd h (by simp)
    rename_i hnew
    rw [ExtTreeMap.contains_iff_mem] at hnew
    obtain ⟨parsed, hparsed, hdistinct, hfresh⟩ := ih h
    simp only [ExtTreeMap.mem_insert, LawfulEqCmp.compare_eq_iff_eq, not_or] at hfresh
    refine ⟨(k, v) :: parsed, .cons hparse hparsed,
      .cons (fun e he ↦ (hfresh e he).1) hdistinct, fun e he ↦ ?_⟩
    rcases List.mem_cons.1 he with rfl | he
    · exact hnew
    · exact (hfresh e he).2

omit [DecidableEq K] in
/-- Conversely, a list that is parsed to entries with new and distinct keys loads. -/
theorem exists_loadAll_of_parsed {A ε : Type} {parse : A → Except ε (K × V)} (duplicate : ε)
    {m : OrderedMap K V} {stored : List A} {parsed : List (K × V)}
    (hparsed : List.Forall₂ (fun a e ↦ parse a = .ok e) stored parsed)
    (hdistinct : parsed.Pairwise fun a b ↦ a.1 ≠ b.1) (hnew : ∀ e ∈ parsed, e.1 ∉ m) :
    ∃ m', loadAll parse duplicate m stored = .ok m' := by
  induction hparsed generalizing m with
  | nil => exact ⟨m, rfl⟩
  | @cons a e rest parsed hparse _ ih =>
    rw [List.pairwise_cons] at hdistinct
    have hnot : m.contains e.1 = false := by
      rw [Bool.eq_false_iff, ne_eq, ExtTreeMap.contains_iff_mem]
      exact hnew e List.mem_cons_self
    rw [loadAll, hparse]
    dsimp only
    rw [hnot, if_neg Bool.false_ne_true]
    refine ih hdistinct.2 fun e' he' hmem ↦ ?_
    rw [ExtTreeMap.mem_insert, LawfulEqCmp.compare_eq_iff_eq] at hmem
    rcases hmem with heq | hmem
    · exact hdistinct.1 e' he' heq
    · exact hnew e' (List.mem_cons_of_mem e he') hmem

omit [DecidableEq K] in
/-- **What loads as a map**: the lists whose entries, parsed one by one, are those of the map in
some order. -/
theorem loadAll_eq_ok_iff {A ε : Type} {parse : A → Except ε (K × V)} {duplicate : ε}
    {m : OrderedMap K V} {stored : List A} :
    loadAll parse duplicate ∅ stored = .ok m ↔
      Relation.Comp (List.Forall₂ fun a e ↦ parse a = .ok e) List.Perm stored m.toList := by
  -- the map a list loads as has exactly the parsed entries
  have hperm : ∀ {m' : OrderedMap K V} {parsed : List (K × V)},
      loadAll parse duplicate ∅ stored = .ok m' →
      List.Forall₂ (fun a e ↦ parse a = .ok e) stored parsed →
      (parsed.Pairwise fun a b ↦ a.1 ≠ b.1) → parsed.Perm m'.toList := by
    intro m' parsed h hparsed hdistinct
    refine (List.perm_ext_iff_of_nodup (hdistinct.imp fun hne heq ↦ hne (congrArg Prod.fst heq))
      ((toList_pairwise_ne m').imp fun hne heq ↦ hne (congrArg Prod.fst heq))).2 fun e ↦ ?_
    rw [ExtTreeMap.mem_toList_iff_getElem?_eq_some, getElem?_loadAll h,
      Except.mem_iff_of_mapM_eq_ok (Except.mapM_eq_ok_iff.2 hparsed)]
    simp
  constructor
  · intro h
    obtain ⟨parsed, hparsed, hdistinct, -⟩ := exists_parsed_of_loadAll h
    exact ⟨parsed, hparsed, hperm h hparsed hdistinct⟩
  · intro h
    obtain ⟨parsed, hparsed, hsame⟩ := h
    have hdistinct := (hsame.pairwise_iff (fun hne ↦ hne.symm)).2 (toList_pairwise_ne m)
    obtain ⟨m', hload⟩ := exists_loadAll_of_parsed duplicate hparsed hdistinct
      fun e _ ↦ ExtTreeMap.not_mem_empty
    have hlist := (hperm hload hparsed hdistinct).symm.trans hsame
    rw [hload, Except.ok.injEq]
    refine ExtTreeMap.ext_getElem? fun k ↦ Option.ext fun v ↦ ?_
    rw [← ExtTreeMap.mem_toList_iff_getElem?_eq_some, ← ExtTreeMap.mem_toList_iff_getElem?_eq_some,
      hlist.mem_iff]

omit [DecidableEq K] in
/-- **A loaded map is the stored association list**, seen through what parsing keeps of a key and a
value. -/
theorem map_getElem?_loadAll {A W T ε : Type} [BEq A] [LawfulBEq A]
    {parse : A × W → Except ε (K × V)} {duplicate : ε} {m : OrderedMap K V}
    {entries : List (A × W)} (h : loadAll parse duplicate ∅ entries = .ok m) {encode : K → A}
    (hinj : ∀ {k k'}, encode k = encode k' → k = k') {f : V → T} {g : W → T}
    (hparse : ∀ {a w k v}, parse (a, w) = .ok (k, v) → a = encode k ∧ f v = g w) (k : K) :
    m[k]?.map f = (entries.lookup (encode k)).map g := by
  rcases hlookup : entries.lookup (encode k) with - | w
  · -- no entry has the key
    rw [List.lookup_eq_none_iff] at hlookup
    rcases hk : m[k]? with - | v
    · rfl
    · rcases (getElem?_loadAll h).1 hk with hempty | ⟨⟨a, w⟩, ha, hentry⟩
      · exact absurd hempty (by simp)
      · have hne := hlookup (a, w) ha
        rw [(hparse hentry).1] at hne
        exact absurd hne (by simp)
  · obtain ⟨before, after, rfl, -⟩ := List.lookup_eq_some_iff.1 hlookup
    have hmem : (encode k, w) ∈ before ++ (encode k, w) :: after := by simp
    obtain ⟨⟨k', v⟩, hentry⟩ := parse_of_loadAll h hmem
    obtain ⟨hkey, hvalue⟩ := hparse hentry
    rw [← hinj hkey] at hentry
    rw [(getElem?_loadAll h).2 (Or.inr ⟨_, hmem, hentry⟩), Option.map_some, Option.map_some, hvalue]

/-! ### Rewriting visited records -/

/-- On keys without repetition, each visited record is rewritten once and the others stay. -/
theorem getElem?_updateAll {m : OrderedMap K V} {keys : List K} (hkeys : keys.Nodup)
    (g : K → V → Option V) (k : K) :
    (updateAll m keys g)[k]? = if k ∈ keys then m[k]?.bind (g k) else m[k]? := by
  induction keys generalizing m with
  | nil => simp [updateAll]
  | cons a keys ih =>
    rw [List.nodup_cons] at hkeys
    rw [updateAll, List.foldl_cons]
    refine (ih hkeys.2).trans ?_
    rw [getElem?_put]
    by_cases hak : a = k
    · subst hak
      rw [if_neg hkeys.1, if_pos rfl, if_pos List.mem_cons_self]
    · rw [if_neg hak]
      simp only [List.mem_cons, Ne.symm hak, false_or]

end Writes

theorem getElem?_eq_some_iff_mem_toList {m : OrderedMap K V} {k : K} {v : V} :
    m[k]? = some v ↔ (k, v) ∈ m.toList :=
  ExtTreeMap.mem_toList_iff_getElem?_eq_some.symm

end OrderedMap
