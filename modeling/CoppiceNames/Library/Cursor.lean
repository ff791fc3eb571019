import CoppiceNames.Library.Wire

/-!
# Readers that slice

A script reads a format with slices and a cursor. A slice that goes beyond the end is no error, only
shorter, so such a reader also returns values on truncated input. It cannot tell, except by what
follows: when something is left behind the last slice, every slice was complete. A reader
**recognises a relation before more** when it returns `a` and a nonempty rest exactly on an encoding
of `a` followed by that rest (`Reader.RecognisesBefore`). This composes along `>>=` as
`Reader.Recognises` does.
-/

namespace Reader

variable {ε α β : Type}

/-- The next `n` bytes, or as many as there are. -/
def slice (n : ℕ) : Reader ε (List UInt8) := fun remaining ↦
  .ok (remaining.take n, remaining.drop n)

/-- The big-endian integer of a slice. -/
def integer (n : ℕ) : Reader ε ℕ := do
  let bytes ← slice n
  return beNat bytes

/-- Fail unless the condition holds. -/
def assert (condition : Prop) [Decidable condition] (e : ε) : Reader ε Unit := fun remaining ↦
  if condition then .ok ((), remaining) else .error e

/-- The reader returns `a` before a nonempty rest exactly on an encoding of `a` and that rest. -/
def RecognisesBefore (r : Reader ε α) (R : α → List UInt8 → Prop) : Prop :=
  ∀ input a rest, rest ≠ [] → (r input = .ok (a, rest) ↔ ∃ e, R a e ∧ input = e ++ rest)

theorem Recognises.before {r : Reader ε α} {R : α → List UInt8 → Prop} (h : Recognises r R) :
    RecognisesBefore r R :=
  fun input a rest _ ↦ h input a rest

namespace RecognisesBefore

theorem slice (n : ℕ) :
    RecognisesBefore (Reader.slice n : Reader ε (List UInt8)) fun out e ↦
      out.length = n ∧ e = out := by
  intro input out rest hrest
  rw [Reader.slice, Except.ok.injEq, Prod.mk.injEq]
  constructor
  · rintro ⟨rfl, rfl⟩
    have hlt : n < input.length := by
      by_contra hle
      exact hrest (List.drop_eq_nil_of_le (not_lt.1 hle))
    exact ⟨_, ⟨List.length_take_of_le hlt.le, rfl⟩, (List.take_append_drop n input).symm⟩
  · rintro ⟨e, ⟨hlength, rfl⟩, rfl⟩
    exact ⟨List.take_left' hlength, List.drop_left' hlength⟩

theorem assert (condition : Prop) [Decidable condition] (err : ε) :
    RecognisesBefore (Reader.assert condition err) fun _ e ↦ condition ∧ e = [] := by
  intro input u rest _
  rw [Reader.assert]
  split
  · rename_i hcondition
    rw [Except.ok.injEq, Prod.mk.injEq]
    constructor
    · rintro ⟨-, rfl⟩
      exact ⟨[], ⟨hcondition, rfl⟩, rfl⟩
    · rintro ⟨e, ⟨-, rfl⟩, rfl⟩
      exact ⟨rfl, rfl⟩
  · rename_i hcondition
    constructor
    · intro h
      cases h
    · rintro ⟨e, ⟨h, -⟩, -⟩
      exact absurd h hcondition

/-- Formats in sequence. What the first part leaves is not empty, for the second part leaves
something of it. -/
theorem bind {r : Reader ε α} {f : α → Reader ε β} {R : α → List UInt8 → Prop}
    {S : α → β → List UInt8 → Prop} (hr : RecognisesBefore r R)
    (hf : ∀ a, RecognisesBefore (f a) (S a)) :
    RecognisesBefore (r >>= f) fun b e ↦ ∃ a e₁ e₂, R a e₁ ∧ S a b e₂ ∧ e = e₁ ++ e₂ := by
  intro input b rest hrest
  rw [bind_eq_ok_iff]
  constructor
  · rintro ⟨a, mid, h₁, h₂⟩
    obtain ⟨e₂, hS, rfl⟩ := (hf a _ _ _ hrest).1 h₂
    obtain ⟨e₁, hR, rfl⟩ := (hr _ _ _ (List.append_ne_nil_of_right_ne_nil _ hrest)).1 h₁
    exact ⟨e₁ ++ e₂, ⟨a, e₁, e₂, hR, hS, rfl⟩, (List.append_assoc _ _ _).symm⟩
  · rintro ⟨e, ⟨a, e₁, e₂, hR, hS, rfl⟩, rfl⟩
    rw [List.append_assoc]
    exact ⟨a, e₂ ++ rest,
      (hr _ _ _ (List.append_ne_nil_of_right_ne_nil _ hrest)).2 ⟨e₁, hR, rfl⟩,
      (hf a _ _ _ hrest).2 ⟨e₂, hS, rfl⟩⟩

theorem congr {r : Reader ε α} {R S : α → List UInt8 → Prop} (hr : RecognisesBefore r R)
    (h : ∀ a e, R a e ↔ S a e) : RecognisesBefore r S := by
  intro input a rest hrest
  rw [hr _ _ _ hrest]
  exact exists_congr fun e ↦ and_congr_left fun _ ↦ h a e

theorem integer (n : ℕ) :
    RecognisesBefore (Reader.integer n : Reader ε ℕ) fun value e ↦
      value < 256 ^ n ∧ e = beBytes n value := by
  refine ((slice n).bind fun bytes ↦ (Recognises.pure (beNat bytes)).before).congr fun value e ↦ ?_
  constructor
  · rintro ⟨digits, _, _, ⟨hlength, rfl⟩, ⟨rfl, rfl⟩, rfl⟩
    rw [← hlength, List.append_nil, beBytes_beNat]
    exact ⟨beNat_lt _, rfl⟩
  · rintro ⟨hlt, rfl⟩
    exact ⟨_, _, [], ⟨beBytes_length n value, rfl⟩, ⟨beNat_beBytes hlt, rfl⟩,
      (List.append_nil _).symm⟩

end RecognisesBefore

end Reader
