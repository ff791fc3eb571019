import Mathlib.Control.Monad.Writer

/-!
# Traced computations

A traced computation makes calls whose answers it uses, and keeps the list of the calls it made. It
is the writer monad over lists of calls, read through two projections: `Traced.calls`, what was
asked, and `Traced.result`, what came of it. The answers come with the calls, so nothing here
depends on who gives them.

The one loop is a retry: attempts under increasing counters until one of them succeeds. When every
attempt makes one call, the position of a call in the trace is the counter it was made under
(`Traced.firstRetry_calls`).
-/

/-- A computation that keeps the calls it makes. -/
abbrev Traced (C : Type) :=
  Writer (List C)

namespace Traced

variable {C α β : Type}

/-- The calls, in order. -/
def calls (p : Traced C α) : List C :=
  p.run.run.2

/-- The result, without the calls. -/
def result (p : Traced C α) : α :=
  p.run.run.1

/-- One call, with its answer. -/
def call (c : C) (answer : α) : Traced C α := do
  tell [c]
  return answer

@[simp]
theorem calls_pure (a : α) : (pure a : Traced C α).calls = [] :=
  rfl

@[simp]
theorem result_pure (a : α) : (pure a : Traced C α).result = a :=
  rfl

@[simp]
theorem calls_bind (p : Traced C α) (f : α → Traced C β) :
    (p >>= f).calls = p.calls ++ (f p.result).calls :=
  rfl

@[simp]
theorem result_bind (p : Traced C α) (f : α → Traced C β) :
    (p >>= f).result = (f p.result).result :=
  rfl

/-! ### Retries -/

section Retries

variable (attempt : ℕ → Traced C (Option α))

/-- The first result from a counter on, among a number of counters. -/
def retryFrom : (left retry : ℕ) → Traced C (Option α)
  | 0, _ => pure none
  | left + 1, retry => do
    match ← attempt retry with
    | some found => pure (some found)
    | none => retryFrom left (retry + 1)

/-- The first result among a number of counters. -/
def firstRetry (counters : ℕ) : Traced C (Option α) :=
  retryFrom attempt counters 0

variable {attempt} {left retry : ℕ} {found : α}

theorem retryFrom_of_some (h : (attempt retry).result = some found) :
    (retryFrom attempt (left + 1) retry).result = some found ∧
      (retryFrom attempt (left + 1) retry).calls = (attempt retry).calls := by
  rw [retryFrom, result_bind, calls_bind, h]
  exact ⟨rfl, List.append_nil _⟩

theorem retryFrom_of_none (h : (attempt retry).result = none) :
    (retryFrom attempt (left + 1) retry).result = (retryFrom attempt left (retry + 1)).result ∧
      (retryFrom attempt (left + 1) retry).calls =
        (attempt retry).calls ++ (retryFrom attempt left (retry + 1)).calls := by
  rw [retryFrom, result_bind, calls_bind, h]
  exact ⟨rfl, rfl⟩

theorem retryFrom_eq_some (h : (retryFrom attempt left retry).result = some found) :
    ∃ counter, counter < retry + left ∧ (attempt counter).result = some found := by
  induction left generalizing retry with
  | zero => exact absurd h (by simp [retryFrom])
  | succ left ih =>
    rcases hattempt : (attempt retry).result with - | first
    · rw [(retryFrom_of_none hattempt).1] at h
      obtain ⟨counter, hlt, hcounter⟩ := ih h
      exact ⟨counter, by omega, hcounter⟩
    · rw [(retryFrom_of_some hattempt).1] at h
      exact ⟨retry, by omega, hattempt.trans h⟩

/-- A result of the loop is the result of one of its counters. -/
theorem firstRetry_eq_some {counters : ℕ} (h : (firstRetry attempt counters).result = some found) :
    ∃ counter < counters, (attempt counter).result = some found := by
  obtain ⟨counter, hlt, hcounter⟩ := retryFrom_eq_some h
  exact ⟨counter, by omega, hcounter⟩

variable {callAt : ℕ → C}

/-- The calls of a loop whose attempts make one call each are those of consecutive counters. -/
theorem exists_calls_retryFrom (hone : ∀ counter, (attempt counter).calls = [callAt counter])
    (left retry : ℕ) : ∃ made ≤ left,
      (retryFrom attempt left retry).calls = (List.range' retry made).map callAt := by
  induction left generalizing retry with
  | zero => exact ⟨0, Nat.le_refl 0, rfl⟩
  | succ left ih =>
    rcases hattempt : (attempt retry).result with - | first
    · obtain ⟨made, hle, hcalls⟩ := ih (retry + 1)
      refine ⟨made + 1, Nat.succ_le_succ hle, ?_⟩
      rw [(retryFrom_of_none hattempt).2, hone, hcalls, List.range'_succ, List.map_cons,
        List.singleton_append]
    · refine ⟨1, Nat.succ_le_succ left.zero_le, ?_⟩
      rw [(retryFrom_of_some hattempt).2, hone]
      rfl

/-- **The position of a call is its counter.** -/
theorem firstRetry_calls {counters position : ℕ} {c : C}
    (hone : ∀ counter, (attempt counter).calls = [callAt counter])
    (h : (firstRetry attempt counters).calls[position]? = some c) :
    position < counters ∧ c = callAt position := by
  obtain ⟨made, hle, hcalls⟩ := exists_calls_retryFrom hone counters 0
  rw [firstRetry, hcalls, List.getElem?_map, Option.map_eq_some_iff] at h
  obtain ⟨counter, hcounter, rfl⟩ := h
  obtain ⟨hlt, heq⟩ := List.getElem?_eq_some_iff.1 hcounter
  rw [List.length_range'] at hlt
  rw [List.getElem_range', Nat.zero_add, Nat.one_mul] at heq
  exact ⟨by omega, by rw [heq]⟩

end Retries

end Traced
