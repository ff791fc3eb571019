import Mathlib

/-!
# Checked computations

A checked computation is a value of `Except`. These are the rules that read a success backwards:
what succeeded when a sequence did, and what each element gave when a checked traversal did.
-/

namespace Except

variable {ε ε' α β : Type}

/-- A sequence succeeds when both of its steps do. -/
theorem bind_eq_ok_iff {x : Except ε α} {f : α → Except ε β} {b : β} :
    (x >>= f) = .ok b ↔ ∃ a, x = .ok a ∧ f a = .ok b := by
  rcases x with e | a
  · simp [bind, Except.bind]
  · simp [bind, Except.bind]

theorem map_eq_ok_iff {f : α → β} {x : Except ε α} {b : β} :
    x.map f = .ok b ↔ ∃ a, x = .ok a ∧ f a = b := by
  rcases x with e | a
  · simp [Except.map]
  · simp [Except.map]

theorem mapError_eq_ok_iff {f : ε → ε'} {x : Except ε α} {a : α} :
    x.mapError f = .ok a ↔ x = .ok a := by
  rcases x with e | b
  · simp [Except.mapError]
  · simp [Except.mapError]

/-- Two sequences agree when their first steps are the same and the second steps agree. -/
theorem bind_eq_map_bind {γ : Type} {x : Except ε α} {f : α → Except ε β} {f' : α → Except ε γ}
    {g : β → γ} (h : ∀ a, f' a = (f a).map g) : (x >>= f') = (x >>= f).map g := by
  rcases x with e | a
  · rfl
  · exact h a

theorem map_bind_eq_map_bind {γ δ : Type} {x : Except ε α} {f : α → Except ε β}
    {f' : δ → Except ε γ} {g : α → δ} {g' : β → γ} (h : ∀ a, f' (g a) = (f a).map g') :
    (x.map g >>= f') = (x >>= f).map g' := by
  rcases x with e | a
  · rfl
  · exact h a

/-- A loop over a part of the state. -/
theorem foldlM_map {γ : Type} {f : β → α → Except ε β} {f' : γ → α → Except ε γ} {g : β → γ}
    (h : ∀ b a, f' (g b) a = (f b a).map g) (l : List α) (b : β) :
    l.foldlM f' (g b) = (l.foldlM f b).map g := by
  induction l generalizing b with
  | nil => rfl
  | cons a l ih =>
    rw [List.foldlM_cons, List.foldlM_cons, h]
    rcases f b a with e | b'
    · rfl
    · exact ih b'

theorem toOption_eq_some_iff {x : Except ε α} {a : α} : x.toOption = some a ↔ x = .ok a := by
  rcases x with e | b
  · simp [Except.toOption]
  · simp [Except.toOption]

/-- A checked traversal succeeds when every element does, and collects the results in order. -/
theorem mapM_eq_ok_iff {f : α → Except ε β} {l : List α} {results : List β} :
    l.mapM f = .ok results ↔ List.Forall₂ (fun a b ↦ f a = .ok b) l results := by
  induction l generalizing results with
  | nil =>
    rw [List.mapM_nil, List.forall₂_nil_left_iff]
    exact ⟨fun h ↦ (Except.ok.inj h).symm, fun h ↦ by rw [h]; rfl⟩
  | cons a l ih =>
    rw [List.mapM_cons, bind_eq_ok_iff, List.forall₂_cons_left_iff]
    constructor
    · rintro ⟨b, hb, htail⟩
      obtain ⟨rest, hrest, hresults⟩ := bind_eq_ok_iff.1 htail
      exact ⟨b, rest, hb, ih.1 hrest, (Except.ok.inj hresults).symm⟩
    · rintro ⟨b, rest, hb, hrest, rfl⟩
      exact ⟨b, hb, bind_eq_ok_iff.2 ⟨rest, ih.2 hrest, rfl⟩⟩

/-- The results of a traversal in which every element succeeds. -/
theorem mapM_eq_ok_map {f : α → Except ε β} {g : α → β} {l : List α}
    (h : ∀ a ∈ l, f a = .ok (g a)) : l.mapM f = .ok (l.map g) := by
  rw [mapM_eq_ok_iff, List.forall₂_map_right_iff, List.forall₂_same]
  exact h

/-- What a traversal collects for the element at a position. -/
theorem mapM_getElem? {f : α → Except ε β} {l : List α} {results : List β} {i : ℕ} {a : α}
    (h : l.mapM f = .ok results) (ha : l[i]? = some a) : ∃ b, results[i]? = some b ∧
    f a = .ok b := by
  rw [mapM_eq_ok_iff] at h
  induction h generalizing i with
  | nil => exact absurd ha (by simp)
  | @cons c b l results hc _ ih =>
    rcases i with - | i
    · rw [List.getElem?_cons_zero, Option.some_inj] at ha
      exact ⟨b, List.getElem?_cons_zero, ha ▸ hc⟩
    · rw [List.getElem?_cons_succ] at ha
      obtain ⟨b', hb', hf⟩ := ih ha
      exact ⟨b', by rwa [List.getElem?_cons_succ], hf⟩

/-- What a traversal collects comes from an element. -/
theorem mem_iff_of_mapM_eq_ok {f : α → Except ε β} {l : List α} {results : List β}
    (h : l.mapM f = .ok results) {b : β} : b ∈ results ↔ ∃ a ∈ l, f a = .ok b := by
  rw [mapM_eq_ok_iff] at h
  induction h with
  | nil => simp
  | @cons a b' l results hb _ ih =>
    rw [List.mem_cons, ih, List.exists_mem_cons_iff, hb, Except.ok.injEq]
    exact or_congr_left eq_comm

/-- A relation between elements carries over to their results. -/
theorem pairwise_of_mapM_eq_ok {R : α → α → Prop} {S : β → β → Prop} {f : α → Except ε β}
    {l : List α} {results : List β} (h : l.mapM f = .ok results) (hl : l.Pairwise R)
    (hS : ∀ a a' b b', R a a' → f a = .ok b → f a' = .ok b' → S b b') : results.Pairwise S := by
  rw [mapM_eq_ok_iff] at h
  induction h with
  | nil => exact List.Pairwise.nil
  | @cons a b l results hb htail ih =>
    obtain ⟨hhead, hl⟩ := List.pairwise_cons.1 hl
    refine List.pairwise_cons.2 ⟨fun b' hb' ↦ ?_, ih hl⟩
    obtain ⟨a', ha', hresult⟩ := (mem_iff_of_mapM_eq_ok (mapM_eq_ok_iff.2 htail)).1 hb'
    exact hS a a' b b' (hhead a' ha') hb hresult

/-- Whether a traversal succeeds does not depend on what it collects. -/
theorem exists_mapM_eq_ok_iff {f : α → Except ε β} {l : List α} :
    (∃ results, l.mapM f = .ok results) ↔ ∀ a ∈ l, ∃ b, f a = .ok b := by
  constructor
  · rintro ⟨results, h⟩ a ha
    obtain ⟨i, hi⟩ := List.mem_iff_getElem?.1 ha
    obtain ⟨b, -, hb⟩ := mapM_getElem? h hi
    exact ⟨b, hb⟩
  · intro h
    induction l with
    | nil => exact ⟨[], rfl⟩
    | cons a l ih =>
      obtain ⟨b, hb⟩ := h a List.mem_cons_self
      obtain ⟨rest, hrest⟩ := ih fun c hc ↦ h c (List.mem_cons_of_mem a hc)
      refine ⟨b :: rest, ?_⟩
      rw [mapM_eq_ok_iff] at hrest ⊢
      exact .cons hb hrest

end Except
