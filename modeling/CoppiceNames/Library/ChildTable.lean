import CoppiceNames.Library.OrderedMap

/-!
# Child tables

A child table has a foreign key into a parent table, and its primary key starts with that foreign
key. Its rows are kept grouped by the parent row they refer to. `ChildTable.insert` refuses a
primary key that is taken, `ChildTable.delete` deletes one row, and `ChildTable.cascade` is what
deleting parent rows does to the table. Taking the least row and deleting it, until none is left,
visits the rows in key order (`toList_erase_least`).

A journaled write checks the value a key has, records something about it in a child row and writes a
new value (`JournaledWrite.perform`). Writes of distinct keys do not see each other, so all of them
succeed when each would succeed alone (`JournaledWrite.exists_performAll`).
-/

open Std

/-- The rows of a child table, grouped by the key of their parent row. -/
abbrev ChildTable (P K V : Type) [Ord P] [Ord K] := OrderedMap P (OrderedMap K V)

namespace ChildTable

variable {P K V : Type} [Ord P] [TransOrd P] [Ord K] [TransOrd K]

/-- The rows that refer to one parent row. -/
def rows (t : ChildTable P K V) (p : P) : OrderedMap K V :=
  t[p]?.getD ∅

/-- Insert a row, unless its primary key is taken. -/
def insert (t : ChildTable P K V) (p : P) (k : K) (v : V) : Option (ChildTable P K V) :=
  if (t.rows p).contains k then none else some (ExtTreeMap.insert t p ((t.rows p).insert k v))

/-- Delete a row. -/
def delete (t : ChildTable P K V) (p : P) (k : K) : ChildTable P K V :=
  ExtTreeMap.insert t p ((t.rows p).erase k)

/-- Keep the rows of the parent rows that are kept. -/
def cascade (t : ChildTable P K V) (kept : P → Bool) : ChildTable P K V :=
  t.filter fun p _ ↦ kept p

omit [TransOrd K] in
@[simp]
theorem rows_empty [LawfulEqOrd P] (p : P) : rows (∅ : ChildTable P K V) p = ∅ := by
  rw [rows, ExtTreeMap.getElem?_empty, Option.getD_none]

theorem insert_eq_some_iff {t t' : ChildTable P K V} {p : P} {k : K} {v : V} :
    t.insert p k v = some t' ↔ k ∉ t.rows p ∧
      ExtTreeMap.insert t p ((t.rows p).insert k v) = t' := by
  rw [insert, ← ExtTreeMap.contains_iff_mem]
  split
  · rename_i htaken
    simp [htaken]
  · rename_i hfree
    simp [hfree]

variable [LawfulEqOrd P]

theorem rows_insert [DecidableEq P] {t t' : ChildTable P K V} {p : P} {k : K} {v : V}
    (h : t.insert p k v = some t') (q : P) :
    t'.rows q = if p = q then (t.rows p).insert k v else t.rows q := by
  obtain ⟨-, rfl⟩ := insert_eq_some_iff.1 h
  rw [rows, ExtTreeMap.getElem?_insert]
  simp only [LawfulEqCmp.compare_eq_iff_eq]
  split
  · rfl
  · rfl

theorem rows_delete [DecidableEq P] (t : ChildTable P K V) (p : P) (k : K) (q : P) :
    (t.delete p k).rows q = if p = q then (t.rows p).erase k else t.rows q := by
  rw [rows, delete, ExtTreeMap.getElem?_insert]
  simp only [LawfulEqCmp.compare_eq_iff_eq]
  split
  · rfl
  · rfl

omit [TransOrd K] in
theorem rows_cascade (t : ChildTable P K V) (kept : P → Bool) (p : P) :
    (t.cascade kept).rows p = if kept p then t.rows p else ∅ := by
  rw [rows, cascade, ExtTreeMap.getElem?_filter', rows]
  rcases t[p]? with - | r
  · simp
  · rcases kept p with - | -
    · rfl
    · rfl

/-- The rows of one parent row are gone, the others are still there. -/
def Drained (p : P) (before after : ChildTable P K V) : Prop :=
  after.rows p = ∅ ∧ ∀ q, q ≠ p → after.rows q = before.rows q

omit [LawfulEqOrd P] in
theorem drained_of_toList_eq_nil {t : ChildTable P K V} {p : P} (h : (t.rows p).toList = []) :
    Drained p t t :=
  ⟨ExtTreeMap.isEmpty_iff.1 (by rw [← ExtTreeMap.isEmpty_toList, h]; rfl), fun _ _ ↦ rfl⟩

theorem Drained.of_delete [DecidableEq P] {before after : ChildTable P K V} {p : P} {k : K}
    (h : Drained p (before.delete p k) after) : Drained p before after := by
  refine ⟨h.1, fun q hne ↦ (h.2 q hne).trans ?_⟩
  rw [rows_delete, if_neg (Ne.symm hne)]

omit [TransOrd K] in
/-- Deleting the rows of a parent row one by one leaves what the cascade leaves. -/
theorem Drained.rows_cascade [DecidableEq P] {before after : ChildTable P K V} {p : P}
    (h : Drained p before after) (q : P) : (after.cascade fun row ↦ row ≠ p).rows q =
      (before.cascade fun row ↦ row ≠ p).rows q := by
  rw [ChildTable.rows_cascade, ChildTable.rows_cascade]
  by_cases hq : q = p
  · rw [if_neg (by simp [hq]), if_neg (by simp [hq])]
  · rw [if_pos (by simpa using hq), if_pos (by simpa using hq), h.2 q hq]

end ChildTable

/-! ### Draining -/

namespace OrderedMap

variable {K V : Type} [Ord K] [TransOrd K]

theorem size_erase_lt {m : OrderedMap K V} {k : K} (h : k ∈ m) : (m.erase k).size < m.size := by
  have hpos : m.size ≠ 0 := by
    intro hzero
    rw [ExtTreeMap.eq_empty_iff_size_eq_zero.2 hzero] at h
    exact ExtTreeMap.not_mem_empty h
  rw [ExtTreeMap.size_erase, if_pos (ExtTreeMap.contains_iff_mem.2 h)]
  omega

variable [LawfulEqOrd K]

theorem size_filter_lt {m : OrderedMap K V} {k : K} {kept : K → Bool} (h : k ∈ m)
    (hk : kept k = false) : (m.filter fun row _ ↦ kept row).size < m.size := by
  refine Nat.lt_of_le_of_ne ExtTreeMap.size_filter_le_size fun heq ↦ ?_
  have hall := ExtTreeMap.size_filter_eq_size_iff.1 heq k h
  rw [ExtTreeMap.getKey_eq, hk] at hall
  exact absurd hall (by simp)

theorem mem_of_toList_eq_cons {m : OrderedMap K V} {entry : K × V} {rest : List (K × V)}
    (h : m.toList = entry :: rest) : entry.1 ∈ m := by
  have hmem : (entry.1, entry.2) ∈ m.toList := by
    rw [h]
    exact List.mem_cons_self
  exact mem_of_getElem?_eq_some (ExtTreeMap.mem_toList_iff_getElem?_eq_some.1 hmem)

/-- **Deleting the least row leaves the others, in order.** -/
theorem toList_erase_least {m : OrderedMap K V} {entry : K × V} {rest : List (K × V)}
    (h : m.toList = entry :: rest) : (m.erase entry.1).toList = rest := by
  have hascending := ascending_toList m
  rw [h] at hascending
  obtain ⟨hfirst, hrest⟩ := List.pairwise_cons.1 hascending
  refine (ascending_toList _).eq_of_mem_iff hrest fun row ↦ ?_
  rw [ExtTreeMap.mem_toList_iff_getElem?_eq_some, ExtTreeMap.getElem?_erase]
  have hmem : m[row.1]? = some row.2 ↔ row = entry ∨ row ∈ rest := by
    rw [← ExtTreeMap.mem_toList_iff_getElem?_eq_some, h, List.mem_cons]
  split
  · -- the deleted key is below every other
    rename_i heq
    refine ⟨fun hnone ↦ absurd hnone (by simp), fun hin ↦ ?_⟩
    have hlt := hfirst row hin
    rw [heq] at hlt
    exact absurd hlt (by simp)
  · rename_i hne
    rw [hmem, or_iff_right]
    rintro rfl
    exact hne ReflCmp.compare_self

end OrderedMap

/-! ### Journaled writes -/

/-- A write of one key, with the value it expects there and what it records. -/
structure JournaledWrite (K V R : Type) where
  key : K
  expected : Option V
  recorded : R
  current : Option V

namespace JournaledWrite

variable {P K V R : Type} [Ord P] [TransOrd P] [Ord K] [TransOrd K] [DecidableEq V]

/-- Check, record and write. -/
def perform (p : P) (tables : OrderedMap K V × ChildTable P K R) (write : JournaledWrite K V R) :
    Option (OrderedMap K V × ChildTable P K R) :=
  if tables.1[write.key]? = write.expected then
    (tables.2.insert p write.key write.recorded).map fun rows ↦
      (OrderedMap.put tables.1 write.key write.current, rows)
  else none

theorem perform_eq_some_iff {p : P} {table table' : OrderedMap K V} {rows rows' : ChildTable P K R}
    {write : JournaledWrite K V R} : write.perform p (table, rows) = some (table', rows') ↔
      table[write.key]? = write.expected ∧ rows.insert p write.key write.recorded = some rows' ∧
        table' = OrderedMap.put table write.key write.current := by
  rw [perform]
  split
  · rename_i hexpected
    simp only [Option.map_eq_some_iff, Prod.mk.injEq, hexpected, true_and]
    constructor
    · rintro ⟨rows'', hrows, rfl, rfl⟩
      exact ⟨hrows, rfl⟩
    · rintro ⟨hrows, rfl⟩
      exact ⟨rows', hrows, rfl, rfl⟩
  · rename_i hexpected
    simp [hexpected]

variable [LawfulEqOrd P] [LawfulEqOrd K] [DecidableEq P] [DecidableEq K]

/-- **All writes of distinct keys.** -/
theorem exists_performAll {p : P} {table : OrderedMap K V} {rows : ChildTable P K R}
    {writes : List (JournaledWrite K V R)} (hdistinct : (writes.map key).Nodup)
    (hexpected : ∀ write ∈ writes, table[write.key]? = write.expected)
    (hfree : ∀ write ∈ writes, write.key ∉ rows.rows p) :
    ∃ table' rows', writes.foldlM (perform p) (table, rows) = some (table', rows') ∧
      (∀ write ∈ writes, table'[write.key]? = write.current ∧
        (rows'.rows p)[write.key]? = some write.recorded) ∧
      (∀ k, k ∉ writes.map key → table'[k]? = table[k]? ∧
        (rows'.rows p)[k]? = (rows.rows p)[k]?) ∧
      ∀ q, q ≠ p → rows'.rows q = rows.rows q := by
  induction writes generalizing table rows with
  | nil =>
    exact ⟨table, rows, rfl, fun _ hmem ↦ absurd hmem List.not_mem_nil, fun _ _ ↦ ⟨rfl, rfl⟩,
      fun _ _ ↦ rfl⟩
  | cons write writes ih =>
    obtain ⟨hnew, hdistinct⟩ := List.nodup_cons.1 hdistinct
    have hinsert := ChildTable.insert_eq_some_iff (v := write.recorded).2
      ⟨hfree write List.mem_cons_self, rfl⟩
    have hrows := ChildTable.rows_insert hinsert
    have hfirst := perform_eq_some_iff.2 ⟨hexpected write List.mem_cons_self, hinsert, rfl⟩
    -- the other keys are untouched by the first write
    have hne : ∀ other ∈ writes, write.key ≠ other.key := fun other hmem heq ↦
      hnew (heq ▸ List.mem_map_of_mem hmem)
    have hexpected' : ∀ other ∈ writes,
        (OrderedMap.put table write.key write.current)[other.key]? = other.expected := by
      intro other hmem
      rw [OrderedMap.getElem?_put, if_neg (hne other hmem)]
      exact hexpected other (List.mem_cons_of_mem write hmem)
    obtain ⟨table', rows', hrest, hwritten, hother, hsibling⟩ := ih hdistinct hexpected'
      fun other hmem ↦ by
        rw [hrows, if_pos rfl, ExtTreeMap.mem_insert, LawfulEqCmp.compare_eq_iff_eq, not_or]
        exact ⟨hne other hmem, hfree other (List.mem_cons_of_mem write hmem)⟩
    refine ⟨table', rows', ?_, fun other hmem ↦ ?_, fun k hk ↦ ?_, fun q hq ↦ ?_⟩
    · rw [List.foldlM_cons, hfirst]
      exact hrest
    · rcases List.mem_cons.1 hmem with rfl | hmem
      · obtain ⟨htable, hrow⟩ := hother other.key hnew
        rw [htable, hrow, OrderedMap.getElem?_put, if_pos rfl, hrows, if_pos rfl,
          ExtTreeMap.getElem?_insert_self]
        exact ⟨rfl, rfl⟩
      · exact hwritten other hmem
    · rw [List.map_cons, List.mem_cons, not_or] at hk
      obtain ⟨htable, hrow⟩ := hother k hk.2
      rw [htable, hrow, OrderedMap.getElem?_put, if_neg (Ne.symm hk.1), hrows, if_pos rfl,
        OrderedMap.getElem?_insert_of_ne (Ne.symm hk.1)]
      exact ⟨rfl, rfl⟩
    · rw [hsibling q hq, hrows, if_neg (Ne.symm hq)]

omit [LawfulEqOrd K] [DecidableEq K] in
/-- The rows of other parent rows stay. -/
theorem rows_foldlM_perform {p q : P} (hq : q ≠ p) {table table' : OrderedMap K V}
    {rows rows' : ChildTable P K R} {writes : List (JournaledWrite K V R)}
    (h : writes.foldlM (perform p) (table, rows) = some (table', rows')) :
    rows'.rows q = rows.rows q := by
  induction writes generalizing table rows with
  | nil =>
    obtain ⟨-, rfl⟩ := Prod.mk.inj (Option.some.inj h)
    rfl
  | cons write writes ih =>
    rw [List.foldlM_cons, Option.bind_eq_bind, Option.bind_eq_some_iff] at h
    obtain ⟨⟨first, added⟩, hfirst, hrest⟩ := h
    obtain ⟨-, hinsert, -⟩ := perform_eq_some_iff.1 hfirst
    rw [ih hrest, ChildTable.rows_insert hinsert, if_neg (Ne.symm hq)]

omit [LawfulEqOrd K] [DecidableEq K] in
/-- The writes see the rows of one parent row only. -/
theorem foldlM_perform_congr {p : P} {table table' : OrderedMap K V}
    {rows rows' other : ChildTable P K R} {writes : List (JournaledWrite K V R)}
    (hsame : rows.rows p = other.rows p)
    (h : writes.foldlM (perform p) (table, rows) = some (table', rows')) :
    ∃ other', writes.foldlM (perform p) (table, other) = some (table', other') ∧
      rows'.rows p = other'.rows p := by
  induction writes generalizing table rows other with
  | nil =>
    obtain ⟨rfl, rfl⟩ := Prod.mk.inj (Option.some.inj h)
    exact ⟨other, rfl, hsame⟩
  | cons write writes ih =>
    rw [List.foldlM_cons, Option.bind_eq_bind, Option.bind_eq_some_iff] at h
    obtain ⟨⟨first, added⟩, hfirst, hrest⟩ := h
    obtain ⟨hexpected, hinsert, rfl⟩ := perform_eq_some_iff.1 hfirst
    obtain ⟨hfree, -⟩ := ChildTable.insert_eq_some_iff.1 hinsert
    rw [hsame] at hfree
    obtain ⟨added', hinsert'⟩ : ∃ added', other.insert p write.key write.recorded = some added' :=
      ⟨_, ChildTable.insert_eq_some_iff.2 ⟨hfree, rfl⟩⟩
    have hsame' : added.rows p = added'.rows p := by
      rw [ChildTable.rows_insert hinsert, ChildTable.rows_insert hinsert', if_pos rfl, if_pos rfl,
        hsame]
    obtain ⟨other', hother, hlast⟩ := ih hsame' hrest
    refine ⟨other', ?_, hlast⟩
    rw [List.foldlM_cons, perform_eq_some_iff.2 ⟨hexpected, hinsert', rfl⟩]
    exact hother

/-- **A performed write can be undone**: where a row is recorded, it tells the value before. -/
theorem getD_foldlM_perform {p : P} {table table' : OrderedMap K V} {rows rows' : ChildTable P K R}
    {writes : List (JournaledWrite K V R)} (undo : R → Option V)
    (hundo : ∀ write ∈ writes, undo write.recorded = write.expected)
    (h : writes.foldlM (perform p) (table, rows) = some (table', rows')) (k : K) :
    ((rows'.rows p)[k]?.map undo).getD table'[k]? =
    ((rows.rows p)[k]?.map undo).getD table[k]? := by
  induction writes generalizing table rows with
  | nil =>
    obtain ⟨rfl, rfl⟩ := Prod.mk.inj (Option.some.inj h)
    rfl
  | cons write writes ih =>
    rw [List.foldlM_cons, Option.bind_eq_bind, Option.bind_eq_some_iff] at h
    obtain ⟨⟨first, added⟩, hfirst, hrest⟩ := h
    obtain ⟨hexpected, hinsert, rfl⟩ := perform_eq_some_iff.1 hfirst
    obtain ⟨hfree, -⟩ := ChildTable.insert_eq_some_iff.1 hinsert
    rw [ih (fun other hmem ↦ hundo other (List.mem_cons_of_mem write hmem)) hrest,
      ChildTable.rows_insert hinsert, if_pos rfl, ExtTreeMap.getElem?_insert,
      OrderedMap.getElem?_put]
    by_cases hk : write.key = k
    · -- the key was not recorded before
      subst hk
      rw [if_pos (by simp), if_pos rfl, Option.map_some, Option.getD_some,
        ExtTreeMap.getElem?_eq_none hfree, hundo write List.mem_cons_self, ← hexpected]
      rfl
    · rw [if_neg (by simpa using hk), if_neg hk]

omit [DecidableEq K] in
/-- A new row is the record of a write. -/
theorem recorded_of_foldlM_perform {p : P}
    {table table' : OrderedMap K V} {rows rows' : ChildTable P K R}
    {writes : List (JournaledWrite K V R)}
    (h : writes.foldlM (perform p) (table, rows) = some (table', rows')) {k : K} {r : R}
    (hrow : (rows'.rows p)[k]? = some r) :
    (rows.rows p)[k]? = some r ∨ ∃ write ∈ writes, write.key = k ∧ write.recorded = r := by
  induction writes generalizing table rows with
  | nil =>
    obtain ⟨-, rfl⟩ := Prod.mk.inj (Option.some.inj h)
    exact Or.inl hrow
  | cons write writes ih =>
    rw [List.foldlM_cons, Option.bind_eq_bind, Option.bind_eq_some_iff] at h
    obtain ⟨⟨first, added⟩, hfirst, hrest⟩ := h
    obtain ⟨-, hinsert, -⟩ := perform_eq_some_iff.1 hfirst
    rcases ih hrest with hadded | ⟨other, hmem, heq⟩
    · rw [ChildTable.rows_insert hinsert, if_pos rfl,
        OrderedMap.getElem?_insert_eq_some_iff] at hadded
      rcases hadded with ⟨hkey, hrecorded⟩ | ⟨-, hold⟩
      · exact Or.inr ⟨write, List.mem_cons_self, hkey, hrecorded⟩
      · exact Or.inl hold
    · exact Or.inr ⟨other, List.mem_cons_of_mem write hmem, heq⟩

/-- **The writes of a journal**, below a parent row without children. -/
theorem exists_performJournal {A : Type} {p : P} {table : OrderedMap K V} {rows : ChildTable P K R}
    (journal : OrderedMap K A) {write : K → A → JournaledWrite K V R}
    (hexpected : ∀ k a, journal[k]? = some a → table[k]? = (write k a).expected)
    (hkey : ∀ k a, (write k a).key = k)
    (hempty : rows.rows p = ∅) :
    ∃ table' rows', (journal.toList.map fun e ↦ write e.1 e.2).foldlM (perform p) (table, rows) =
        some (table', rows') ∧
      (∀ k : K, table'[k]? = (journal[k]?.map fun a ↦ (write k a).current).getD table[k]?) ∧
      (∀ k : K, (rows'.rows p)[k]? = journal[k]?.map fun a ↦ (write k a).recorded) ∧
      ∀ q, q ≠ p → rows'.rows q = rows.rows q := by
  have hkeys : (journal.toList.map fun e ↦ write e.1 e.2).map key =
    journal.toList.map Prod.fst := by
    rw [List.map_map]
    exact List.map_congr_left fun e _ ↦ hkey e.1 e.2
  have hmem : ∀ k a, journal[k]? = some a →
      write k a ∈ journal.toList.map fun e ↦ write e.1 e.2 := fun k a hk ↦
    List.mem_map.2 ⟨(k, a), ExtTreeMap.mem_toList_iff_getElem?_eq_some.2 hk, rfl⟩
  have hdistinct : ((journal.toList.map fun e ↦ write e.1 e.2).map key).Nodup := by
    rw [hkeys]
    exact (OrderedMap.ascending_toList journal).keys_nodup
  have hvalues : ∀ w ∈ journal.toList.map fun e ↦ write e.1 e.2,
      table[w.key]? = w.expected := by
    intro w hw
    obtain ⟨e, he, rfl⟩ := List.mem_map.1 hw
    rw [hkey]
    exact hexpected e.1 e.2 (ExtTreeMap.mem_toList_iff_getElem?_eq_some.1 he)
  have hfree : ∀ w ∈ journal.toList.map fun e ↦ write e.1 e.2, w.key ∉ rows.rows p := by
    intro w _
    rw [hempty]
    exact ExtTreeMap.not_mem_empty
  obtain ⟨table', rows', hperform, hwritten, hother, hsibling⟩ :=
    exists_performAll hdistinct hvalues hfree
  have hout : ∀ k : K, journal[k]? = none →
      k ∉ (journal.toList.map fun e ↦ write e.1 e.2).map key := by
    intro k hk hin
    rw [hkeys, List.mem_map] at hin
    obtain ⟨⟨k', a⟩, he, rfl⟩ := hin
    rw [ExtTreeMap.mem_toList_iff_getElem?_eq_some.1 he] at hk
    exact absurd hk (by simp)
  refine ⟨table', rows', hperform, fun k ↦ ?_, fun k ↦ ?_, hsibling⟩
  · rcases hk : journal[k]? with - | a
    · exact (hother k (hout k hk)).1
    · have hvalue := (hwritten _ (hmem k a hk)).1
      rwa [hkey] at hvalue
  · rcases hk : journal[k]? with - | a
    · rw [(hother k (hout k hk)).2, hempty]
      rfl
    · have hvalue := (hwritten _ (hmem k a hk)).2
      rwa [hkey] at hvalue

end JournaledWrite
