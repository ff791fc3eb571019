import Mathlib

/-!
# Outcomes of checked computations

A computation in `Except` ends in a value or in an error. `Ensures E Q` says what holds either way:
an error satisfies `E`, a value satisfies `Q`. One walk through a computation then shows at once
what it returns and how it can fail. There is a rule for each way to put computations together; in
the rules for loops the error condition is the same throughout, and what the iterations establish is
collected.

A computation whose errors all satisfy `E` ensures of its value that it returns it
(`Ensures.value`), so nothing that is known about a called function has to be said again.
-/

namespace Except

variable {ε ε' α β : Type} {E : ε → Prop} {E' : ε' → Prop} {P Q : α → Prop} {R : β → Prop}
  {x : Except ε α} {a : α}

/-- An error satisfies the first predicate, a value the second. -/
def Ensures (E : ε → Prop) (Q : α → Prop) : Except ε α → Prop
  | error e => E e
  | ok a => Q a

theorem ensures_ok_iff : Ensures E Q (.ok a) ↔ Q a := Iff.rfl

namespace Ensures

theorem of_ok (h : x.Ensures E Q) (hx : x = .ok a) : Q a := by
  rw [hx] at h
  exact h

theorem of_error (h : x.Ensures E Q) {e : ε} (hx : x = .error e) : E e := by
  rw [hx] at h
  exact h

theorem mono (h : x.Ensures E P) (hle : ∀ a, P a → Q a) : x.Ensures E Q := by
  rcases x with e | a
  · exact h
  · exact hle a h

/-- The value is what the computation returns. -/
theorem value (h : x.Ensures E Q) : x.Ensures E fun a ↦ x = .ok a ∧ Q a := by
  rcases x with e | a
  · exact h
  · exact ⟨rfl, h⟩

/-- **Sequences.** -/
theorem bind {f : α → Except ε β} (h : x.Ensures E P) (hf : ∀ a, P a → (f a).Ensures E R) :
    (x >>= f).Ensures E R := by
  rcases x with e | a
  · exact h
  · exact hf a h

/-- Errors that are reported under another name. -/
theorem mapError {f : ε → ε'} (h : x.Ensures (fun e ↦ E' (f e)) Q) :
    (x.mapError f).Ensures E' Q := by
  rcases x with e | a
  · exact h
  · exact h

end Ensures

/-- **Loops of checks.** -/
theorem ensures_forM {l : List α} {check : α → Except ε PUnit}
    (h : ∀ a ∈ l, (check a).Ensures E fun _ ↦ P a) :
    (l.forM check).Ensures E fun _ ↦ ∀ a ∈ l, P a := by
  induction l with
  | nil => exact fun a ha ↦ absurd ha List.not_mem_nil
  | cons a l ih =>
    obtain ⟨hfirst, hrest⟩ := List.forall_mem_cons.1 h
    refine hfirst.bind fun _ ha ↦ (ih hrest).mono fun _ hl ↦ ?_
    exact List.forall_mem_cons.2 ⟨ha, hl⟩

/-- **Loops that collect results.** -/
theorem ensures_mapM {l : List α} {f : α → Except ε β} {S : α → β → Prop}
    (h : ∀ a ∈ l, (f a).Ensures E (S a)) : (l.mapM f).Ensures E (List.Forall₂ S l) := by
  induction l with
  | nil => exact List.Forall₂.nil
  | cons a l ih =>
    obtain ⟨hfirst, hrest⟩ := List.forall_mem_cons.1 h
    rw [List.mapM_cons]
    exact hfirst.bind fun b hb ↦ (ih hrest).bind fun bs hbs ↦ List.Forall₂.cons hb hbs

/-- **Loops that carry a state.** -/
theorem ensures_foldlM {l : List α} {f : β → α → Except ε β} {start : β} (hstart : R start)
    (h : ∀ state, R state → ∀ a ∈ l, (f state a).Ensures E R) :
    (l.foldlM f start).Ensures E R := by
  induction l generalizing start with
  | nil => exact hstart
  | cons a l ih =>
    rw [List.foldlM_cons]
    refine (h start hstart a List.mem_cons_self).bind fun next hnext ↦ ih hnext ?_
    exact fun state hstate b hb ↦ h state hstate b (List.mem_cons_of_mem a hb)

end Except
