import Mathlib

/-!
# Numbering items in groups

Items come in groups, each group under a key. Counting all items through from a start gives every
item its number; the number of an item can be found from its key and its index alone, by skipping
the groups before its own. With distinct keys the two agree (`Groups.map_number_items`): the numbers
found for all items in order are the consecutive ones.
-/

/-- Groups of items: the keys, with the number of items under each. -/
abbrev Groups (κ : Type) := List (κ × ℕ)

namespace Groups

variable {κ : Type}

/-- The items in order, each by its key and its index in the group. -/
def items (groups : Groups κ) : List (κ × ℕ) :=
  groups.flatMap fun group ↦ (List.range group.2).map fun index ↦ (group.1, index)

/-- How many items there are. -/
def total (groups : Groups κ) : ℕ :=
  (groups.map Prod.snd).sum

theorem items_cons (group : κ × ℕ) (groups : Groups κ) :
    items (group :: groups) =
      ((List.range group.2).map fun index ↦ (group.1, index)) ++ items groups :=
  rfl

@[simp]
theorem total_cons (group : κ × ℕ) (groups : Groups κ) :
    total (group :: groups) = group.2 + total groups :=
  List.sum_cons

theorem mem_items_iff {groups : Groups κ} {key : κ} {index : ℕ} :
    (key, index) ∈ groups.items ↔ ∃ group ∈ groups, group.1 = key ∧ index < group.2 := by
  simp only [items, List.mem_flatMap, List.mem_map, List.mem_range, Prod.mk.injEq]
  constructor
  · rintro ⟨group, hmem, i, hi, hkey, rfl⟩
    exact ⟨group, hmem, hkey, hi⟩
  · rintro ⟨group, hmem, hkey, hi⟩
    exact ⟨group, hmem, index, hi, hkey, rfl⟩

variable [DecidableEq κ]

/-- The number of an item, found by skipping the groups before the first one with its key. -/
def number (start : ℕ) : Groups κ → κ → ℕ → Option ℕ
  | [], _, _ => none
  | group :: groups, key, index =>
    if group.1 = key then if index < group.2 then some (start + index) else none
    else number (start + group.2) groups key index

/-- A number that is found lies in the range that is counted through. -/
theorem number_mem_range {groups : Groups κ} {start key index n}
    (h : number start groups key index = some n) : start ≤ n ∧ n < start + total groups := by
  induction groups generalizing start with
  | nil => exact absurd h (by simp [number])
  | cons group groups ih =>
    rw [number] at h
    rw [total_cons]
    split at h
    · split at h
      · obtain rfl := Option.some.inj h
        omega
      · exact absurd h (by simp)
    · have hrest := ih h
      omega

theorem mem_items_of_number {groups : Groups κ} {start key index n}
    (h : number start groups key index = some n) : (key, index) ∈ groups.items := by
  rw [mem_items_iff]
  induction groups generalizing start with
  | nil => exact absurd h (by simp [number])
  | cons group groups ih =>
    rw [number] at h
    split at h
    · rename_i hkey
      split at h
      · rename_i hindex
        exact ⟨group, List.mem_cons_self, hkey, hindex⟩
      · exact absurd h (by simp)
    · obtain ⟨found, hmem, hfound⟩ := ih h
      exact ⟨found, List.mem_cons_of_mem group hmem, hfound⟩

/-- **Items are numbered through.** -/
theorem map_number_items {groups : Groups κ} (hkeys : (groups.map Prod.fst).Nodup) (start : ℕ) :
    (groups.items.map fun item ↦ number start groups item.1 item.2) =
      (List.range' start groups.total).map some := by
  induction groups generalizing start with
  | nil => rfl
  | cons group groups ih =>
    rw [List.map_cons, List.nodup_cons] at hkeys
    obtain ⟨hfresh, hkeys⟩ := hkeys
    rw [items_cons, List.map_append, List.map_map, total_cons, ← List.range'_append_1,
      List.map_append, ← ih hkeys]
    congr 1
    · rw [List.range'_eq_map_range, List.map_map]
      refine List.map_congr_left fun index hindex ↦ ?_
      show number start (group :: groups) group.1 index = some (start + index)
      rw [number, if_pos rfl, if_pos (List.mem_range.1 hindex)]
    · refine List.map_congr_left fun item hitem ↦ ?_
      obtain ⟨found, hmem, hkey, -⟩ := mem_items_iff.1 hitem
      have hne : group.1 ≠ item.1 := fun h ↦
        hfresh (List.mem_map.2 ⟨found, hmem, hkey.trans h.symm⟩)
      rw [number, if_neg hne]

/-- Every item has a number, and nothing else has. -/
theorem exists_number_iff {groups : Groups κ} (hkeys : (groups.map Prod.fst).Nodup) (start : ℕ)
    {key : κ} {index : ℕ} :
    (∃ n, number start groups key index = some n) ↔ (key, index) ∈ groups.items := by
  constructor
  · rintro ⟨n, h⟩
    exact mem_items_of_number h
  · intro hitem
    have hmem : number start groups key index ∈
        groups.items.map fun item ↦ number start groups item.1 item.2 :=
      List.mem_map_of_mem hitem
    rw [map_number_items hkeys, List.mem_map] at hmem
    obtain ⟨n, -, hn⟩ := hmem
    exact ⟨n, hn.symm⟩

end Groups
