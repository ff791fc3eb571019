import Mathlib

/-!
# Collisions

What two equal digests say about the inputs behind them. A hash function with short outputs always
has collisions, so a result has to name the inputs that were hashed: a `Collision` is a pair of
different inputs, one of each of two computations, with the same output.

A two-to-one function that is folded over a list, starting from a domain constant, binds domain and
list (`foldl_pair_eq`): equal results come from equal lists, or from a collision among the pairs
that were hashed, or one of these pairs was hashed to a domain constant. The last case is what folds
of different lengths come down to.
-/

/-! ### Personalized hashes -/

section Personalized

variable {P I O : Type} {hash : P → I → O} {inputs inputs' : List (P × I)}

/-- Different inputs with one output under one personalization, the first from one computation and
the second from the other. -/
def Collision (hash : P → I → O) (inputs inputs' : List (P × I)) : Prop :=
  ∃ p x x', (p, x) ∈ inputs ∧ (p, x') ∈ inputs' ∧ x ≠ x' ∧ hash p x = hash p x'

/-- Equal outputs, of equal inputs unless they collide. -/
theorem eq_or_collision {p : P} {x x' : I} (h : hash p x = hash p x') (hx : (p, x) ∈ inputs)
    (hx' : (p, x') ∈ inputs') : x = x' ∨ Collision hash inputs inputs' := by
  by_cases heq : x = x'
  · exact Or.inl heq
  · exact Or.inr ⟨p, x, x', hx, hx', heq, h⟩

end Personalized

/-! ### Folds of a two-to-one function -/

section Folds

variable {A : Type} (pair : A → A → A)

/-- The pairs that a fold hashes. -/
def foldInputs : A → List A → List (A × A)
  | _, [] => []
  | domain, x :: xs => (domain, x) :: foldInputs (pair domain x) xs

/-- Different pairs with one output, the first from one computation and the second from the
other. -/
def PairCollision (inputs inputs' : List (A × A)) : Prop :=
  ∃ p ∈ inputs, ∃ p' ∈ inputs', p ≠ p' ∧ pair p.1 p.2 = pair p'.1 p'.2

/-- A pair was hashed to a constant. -/
def Hits (constant : A) (inputs : List (A × A)) : Prop :=
  ∃ p ∈ inputs, pair p.1 p.2 = constant

variable {pair}

theorem foldInputs_concat (domain : A) (xs : List A) (x : A) : foldInputs pair domain (xs ++ [x]) =
    foldInputs pair domain xs ++ [(xs.foldl pair domain, x)] := by
  induction xs generalizing domain with
  | nil => rfl
  | cons y xs ih =>
    rw [List.cons_append, foldInputs, ih, foldInputs, List.cons_append, List.foldl_cons]

theorem PairCollision.mono {inputs inputs' more more' : List (A × A)}
    (h : PairCollision pair inputs inputs') :
    PairCollision pair (inputs ++ more) (inputs' ++ more') := by
  obtain ⟨p, hp, p', hp', hne, heq⟩ := h
  exact ⟨p, List.mem_append_left _ hp, p', List.mem_append_left _ hp', hne, heq⟩

theorem Hits.mono {constant : A} {inputs more : List (A × A)} (h : Hits pair constant inputs) :
    Hits pair constant (inputs ++ more) := by
  obtain ⟨p, hp, heq⟩ := h
  exact ⟨p, List.mem_append_left _ hp, heq⟩

variable (pair) in
/-- The last element of a fold was hashed with the fold before it. -/
theorem hits_foldInputs_concat (domain : A) (xs : List A) (x : A) :
    Hits pair ((xs ++ [x]).foldl pair domain) (foldInputs pair domain (xs ++ [x])) := by
  rw [foldInputs_concat]
  refine ⟨_, List.mem_append_right _ List.mem_cons_self, ?_⟩
  rw [List.foldl_append]
  rfl

/-- **Equal folds.** Both are peeled from their ends. -/
theorem foldl_pair_eq {domain domain' : A} {xs ys : List A}
    (h : xs.foldl pair domain = ys.foldl pair domain') :
    (domain = domain' ∧ xs = ys) ∨
      PairCollision pair (foldInputs pair domain xs) (foldInputs pair domain' ys) ∨
      Hits pair domain' (foldInputs pair domain xs) ∨
      Hits pair domain (foldInputs pair domain' ys) := by
  induction xs using List.reverseRecOn generalizing ys with
  | nil =>
    rcases List.eq_nil_or_concat ys with rfl | ⟨ys, y, rfl⟩
    · exact Or.inl ⟨h, rfl⟩
    · rw [List.concat_eq_append] at h ⊢
      have hhits := hits_foldInputs_concat pair domain' ys y
      rw [← h] at hhits
      exact Or.inr (Or.inr (Or.inr hhits))
  | append_singleton xs x ih =>
    rcases List.eq_nil_or_concat ys with rfl | ⟨ys, y, rfl⟩
    · have hhits := hits_foldInputs_concat pair domain xs x
      rw [h] at hhits
      exact Or.inr (Or.inr (Or.inl hhits))
    · rw [List.concat_eq_append, List.foldl_append, List.foldl_append] at h
      rw [List.concat_eq_append, foldInputs_concat, foldInputs_concat]
      by_cases hlast : (xs.foldl pair domain, x) = (ys.foldl pair domain', y)
      · -- the last pairs are the same
        obtain ⟨hfold, rfl⟩ := Prod.mk.inj hlast
        rcases ih hfold with ⟨rfl, rfl⟩ | hcollision | hhits | hhits
        · exact Or.inl ⟨rfl, rfl⟩
        · exact Or.inr (Or.inl hcollision.mono)
        · exact Or.inr (Or.inr (Or.inl hhits.mono))
        · exact Or.inr (Or.inr (Or.inr hhits.mono))
      · exact Or.inr (Or.inl ⟨_, List.mem_append_right _ List.mem_cons_self, _,
          List.mem_append_right _ List.mem_cons_self, hlast, h⟩)

end Folds
