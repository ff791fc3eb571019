import CoppiceNames.Library.OrderedMap

/-!
# Insertion-ordered dictionaries

A dictionary that iterates over its keys in the order in which they were first inserted. Assigning
to a key that is present keeps its place, and a key that is deleted and inserted again goes to the
end.

Lookups are independent of that order: the lemmas here say what each operation does to the value of
a key. Only `Dict.entries` shows the order.
-/

open Std

/-- A dictionary with distinct keys, oldest first. -/
structure Dict (K V : Type) where
  entries : List (K × V)
  /-- No key occurs twice. -/
  nodup : (entries.map Prod.fst).Nodup

namespace Dict

variable {K V : Type}

/-- No entries. -/
def empty : Dict K V := ⟨[], List.nodup_nil⟩

/-- The keys, oldest first. -/
def keys (d : Dict K V) : List K :=
  d.entries.map Prod.fst

/-- The entries that satisfy a condition. -/
def filter (d : Dict K V) (p : K → V → Bool) : Dict K V where
  entries := d.entries.filter fun e ↦ p e.1 e.2
  nodup := d.nodup.sublist (List.filter_sublist.map Prod.fst)

/-- Change every value in place. -/
def mapValues (d : Dict K V) (f : K → V → V) : Dict K V where
  entries := d.entries.map fun e ↦ (e.1, f e.1 e.2)
  nodup := by
    rw [List.map_map]
    exact d.nodup

variable [DecidableEq K]

/-- `d.get(k)`. -/
def get? (d : Dict K V) (k : K) : Option V :=
  d.entries.lookup k

/-- `d[k] = v`. -/
def set (d : Dict K V) (k : K) (v : V) : Dict K V :=
  if h : k ∈ d.keys then d.mapValues fun key old ↦ if key = k then v else old
  else
    { entries := d.entries ++ [(k, v)]
      nodup := by
        rw [List.map_append]
        refine List.nodup_append.2 ⟨d.nodup, List.nodup_singleton k, fun a ha b hb hab ↦ h ?_⟩
        rw [← show b = k from List.mem_singleton.1 hb, ← hab]
        exact ha }

/-- `del d[k]`. -/
def erase (d : Dict K V) (k : K) : Dict K V :=
  d.filter fun key _ ↦ key ≠ k

/-! ### Lookups -/

theorem mem_entries_iff (d : Dict K V) {k : K} {v : V} :
    (k, v) ∈ d.entries ↔ d.get? k = some v := by
  rcases d with ⟨entries, hnodup⟩
  rw [get?]
  induction entries with
  | nil => simp
  | cons e entries ih =>
    obtain ⟨hfresh, hrest⟩ := List.nodup_cons.1 hnodup
    rw [List.mem_cons, List.lookup_cons]
    split
    · -- the head entry has this key, so no later one does
      rename_i heq
      have hkey : k = e.1 := by simpa using heq
      have habsent : (k, v) ∉ entries := fun hmem ↦
        hfresh (hkey ▸ List.mem_map_of_mem hmem)
      rw [Option.some.injEq, or_iff_left habsent, hkey, Prod.ext_iff]
      exact ⟨fun h ↦ h.2.symm, fun h ↦ ⟨rfl, h.symm⟩⟩
    · rename_i hne
      have hkey : k ≠ e.1 := by simpa using hne
      have hhead : (k, v) ≠ e := fun h ↦ hkey (by rw [← h])
      rw [or_iff_right hhead]
      exact ih hrest

theorem mem_keys_iff (d : Dict K V) {k : K} : k ∈ d.keys ↔ ∃ v, d.get? k = some v := by
  rw [keys, List.mem_map]
  constructor
  · rintro ⟨e, he, rfl⟩
    exact ⟨e.2, (d.mem_entries_iff).1 he⟩
  · rintro ⟨v, hv⟩
    exact ⟨(k, v), (d.mem_entries_iff).2 hv, rfl⟩

@[simp]
theorem get?_empty (k : K) : (empty : Dict K V).get? k = none := rfl

@[simp]
theorem get?_filter (d : Dict K V) (p : K → V → Bool) (k : K) :
    (d.filter p).get? k = (d.get? k).filter (p k) := by
  ext v
  rw [← mem_entries_iff, filter, List.mem_filter, mem_entries_iff, Option.filter_eq_some_iff]

@[simp]
theorem get?_mapValues (d : Dict K V) (f : K → V → V) (k : K) :
    (d.mapValues f).get? k = (d.get? k).map (f k) := by
  ext v
  rw [← mem_entries_iff, mapValues, List.mem_map, Option.map_eq_some_iff]
  constructor
  · rintro ⟨e, he, heq⟩
    obtain ⟨rfl, rfl⟩ := Prod.ext_iff.1 heq
    exact ⟨e.2, (d.mem_entries_iff).1 he, rfl⟩
  · rintro ⟨old, hold, rfl⟩
    exact ⟨(k, old), (d.mem_entries_iff).2 hold, rfl⟩

@[simp]
theorem get?_set (d : Dict K V) (k a : K) (v : V) :
    (d.set k v).get? a = if a = k then some v else d.get? a := by
  rw [set]
  split
  · rename_i hmem
    rw [get?_mapValues]
    by_cases ha : a = k
    · obtain ⟨old, hold⟩ := d.mem_keys_iff.1 hmem
      rw [ha, hold, if_pos rfl, Option.map_some, if_pos rfl]
    · simp only [if_neg ha, Option.map_id']
  · rename_i hfresh
    ext w
    rw [← mem_entries_iff, List.mem_append, mem_entries_iff, List.mem_singleton, Prod.ext_iff]
    by_cases ha : a = k
    · have hnone : d.get? a ≠ some w := fun h ↦ hfresh (d.mem_keys_iff.2 ⟨w, ha ▸ h⟩)
      rw [or_iff_right hnone, if_pos ha, Option.some.injEq]
      exact ⟨fun h ↦ h.2.symm, fun h ↦ ⟨ha, h.symm⟩⟩
    · rw [if_neg ha, or_iff_left fun h ↦ ha h.1]

@[simp]
theorem get?_erase (d : Dict K V) (k a : K) :
    (d.erase k).get? a = if a = k then none else d.get? a := by
  rw [erase, get?_filter]
  by_cases ha : a = k
  · rw [if_pos ha, Option.filter_eq_none_iff]
    intro v _
    simp [ha]
  · rw [if_neg ha]
    ext v
    rw [Option.filter_eq_some_iff]
    simp [ha]

/-- Deleting keys one after another. -/
theorem get?_foldl_erase (d : Dict K V) (ks : List K) (a : K) :
    (ks.foldl erase d).get? a = if a ∈ ks then none else d.get? a := by
  induction ks generalizing d with
  | nil => simp
  | cons k ks ih =>
    rw [List.foldl_cons, ih, get?_erase]
    by_cases ha : a = k <;> simp [ha]

end Dict
