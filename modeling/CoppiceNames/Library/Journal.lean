import CoppiceNames.Library.OrderedMap

/-!
# First-write-wins journals

A journal of a store is a table of the values its keys had before they were first written:
`remember` records the current value of a key unless the key is already recorded.
`Journals j base m` says that `j` is a journal of the way from `base` to `m`: a recorded value is
the key's value in `base`, and a key that is not recorded has not changed.

Writing a remembered key keeps this (`Journals.write`), and putting the recorded values back undoes
every write since (`Journals.restore`).
-/

open Std

/-- The values some keys had before they were first written; `none` for a key that was absent. -/
abbrev JournalOf (K V : Type) [Ord K] := OrderedMap K (Option V)

namespace OrderedMap

variable {K V : Type} [Ord K] [TransOrd K]

/-- Record the current value of a key, unless the key is recorded already. -/
def remember (journal : JournalOf K V) (m : OrderedMap K V) (k : K) : JournalOf K V :=
  journal.insertIfNew k m[k]?

/-- The value of a key before all journals of a list, oldest first: the oldest recorded value, or
the current one. -/
def valueBefore (m : OrderedMap K V) : List (JournalOf K V) → K → Option V
  | [], k => m[k]?
  | journal :: later, k => (journal[k]?).getD (valueBefore m later k)

/-- The journal accounts for every difference between `base` and `m`. -/
def Journals (journal : JournalOf K V) (base m : OrderedMap K V) : Prop :=
  ∀ k : K, (journal[k]?).elim (m[k]? = base[k]?) fun recorded ↦ recorded = base[k]?

theorem Journals.refl (m : OrderedMap K V) : Journals ∅ m m := by
  intro k
  simp

section

variable {journal : JournalOf K V} {base m : OrderedMap K V}

theorem Journals.eq_base (h : Journals journal base m) {k : K} {recorded : Option V}
    (hk : journal[k]? = some recorded) : recorded = base[k]? := by
  have := h k
  rwa [hk] at this

theorem Journals.unchanged (h : Journals journal base m) {k : K} (hk : journal[k]? = none) :
    m[k]? = base[k]? := by
  have := h k
  rwa [hk] at this

/-- The recorded value of a key, or else its current one, is its value in the base. -/
theorem Journals.getD (h : Journals journal base m) (k : K) :
    (journal[k]?).getD m[k]? = base[k]? := by
  rcases hk : journal[k]? with - | recorded
  · exact h.unchanged hk
  · exact h.eq_base hk

variable [LawfulEqOrd K]

theorem getElem?_remember [DecidableEq K] (journal : JournalOf K V) (m : OrderedMap K V) (k a : K) :
    (remember journal m k)[a]? = if k =
    a then some ((journal[k]?).getD m[k]?) else journal[a]? := by
  rw [remember, ExtTreeMap.getElem?_insertIfNew]
  by_cases hka : k = a
  · subst hka
    rcases h : journal[k]? with - | recorded
    · have hmem : k ∉ journal := by
        rw [ExtTreeMap.mem_iff_isSome_getElem?, h]
        exact Bool.false_ne_true
      simp [hmem]
    · have hmem : k ∈ journal := by
        rw [ExtTreeMap.mem_iff_isSome_getElem?, h]
        rfl
      simp [hmem]
  · simp [hka]

theorem mem_remember (journal : JournalOf K V) (m : OrderedMap K V) (k a : K) :
    a ∈ remember journal m k ↔ k = a ∨ a ∈ journal := by
  rw [remember, ExtTreeMap.mem_insertIfNew, LawfulEqCmp.compare_eq_iff_eq]

variable [DecidableEq K]

theorem Journals.remember (h : Journals journal base m) (k : K) :
    Journals (remember journal m k) base m := by
  intro a
  rw [getElem?_remember]
  by_cases hka : k = a
  · subst hka
    rw [if_pos rfl, Option.elim_some]
    rcases hk : journal[k]? with - | recorded
    · exact h.unchanged hk
    · exact h.eq_base hk
  · rw [if_neg hka]
    exact h a

/-- **A remembered key may be written.** -/
theorem Journals.write (h : Journals journal base m) (k : K) (v : Option V) :
    Journals (OrderedMap.remember journal m k) base (put m k v) := by
  have hremembered := h.remember k
  intro a
  have ha := hremembered a
  rw [getElem?_remember] at ha ⊢
  rw [getElem?_put]
  by_cases hka : k = a
  · rw [if_pos hka] at ha ⊢
    exact ha
  · rw [if_neg hka] at ha ⊢
    rw [if_neg hka]
    exact ha

/-- **Putting the recorded values back gives the base.** -/
theorem Journals.restore (h : Journals journal base m) : putAll m journal.toList = base := by
  apply ExtTreeMap.ext_getElem?
  intro k
  rw [getElem?_putAll_toList, h.getD]

end

end OrderedMap
