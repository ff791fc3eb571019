import Mathlib

/-!
# Loops that may run on

A loop is given by what one iteration does to its state: it breaks, it continues, or it panics. Run
for at most some number of iterations, it stands in one of the same three ways, where *continues*
means that it is still running.

Two rules decide termination. A loop whose iterations keep an invariant and lower a measure breaks
(`exists_loop_breaks`); a loop whose iterations keep an invariant and continue runs on
(`loop_continues`). A loop over the entries of a list is a traversal in `Option`, where `none` is a
panic, or in `Except`.
-/

/-- What an iteration of a loop does. -/
inductive Iteration (σ : Type)
  | panics
  | breaks (state : σ)
  | continues (state : σ)

namespace Iteration

variable {σ : Type}

/-- There is a state, and it satisfies the predicate. -/
def Holds (I : σ → Prop) : Iteration σ → Prop
  | panics => False
  | breaks state => I state
  | continues state => I state

theorem Holds.mono {I J : σ → Prop} {outcome : Iteration σ} (h : outcome.Holds I)
    (hle : ∀ state, I state → J state) : outcome.Holds J := by
  rcases outcome with - | final | current
  · exact h
  · exact hle final h
  · exact hle current h

/-- How a loop stands after at most so many iterations. -/
def loop (body : σ → Iteration σ) : ℕ → σ → Iteration σ
  | 0, state => continues state
  | fuel + 1, state =>
    match body state with
    | panics => panics
    | breaks final => breaks final
    | continues next => loop body fuel next

variable {body : σ → Iteration σ} {I : σ → Prop} {state next final : σ}

theorem loop_succ_of_breaks (h : body state = breaks final) (fuel : ℕ) :
    loop body (fuel + 1) state = breaks final := by
  rw [loop, h]

theorem loop_succ_of_continues (h : body state = continues next) (fuel : ℕ) :
    loop body (fuel + 1) state = loop body fuel next := by
  rw [loop, h]

/-- An invariant of the iterations is one of the loop. -/
theorem loop_holds (hbody : ∀ state, I state → (body state).Holds I) (h : I state) (fuel : ℕ) :
    (loop body fuel state).Holds I := by
  induction fuel generalizing state with
  | zero => exact h
  | succ fuel ih =>
    have hnext := hbody state h
    rcases hstep : body state with - | final | next
    · rw [hstep] at hnext
      exact hnext.elim
    · rw [hstep] at hnext
      rw [loop_succ_of_breaks hstep]
      exact hnext
    · rw [hstep] at hnext
      rw [loop_succ_of_continues hstep]
      exact ih hnext

/-- **A loop that lowers a measure breaks.** -/
theorem exists_loop_breaks (μ : σ → ℕ)
    (hbody : ∀ state, I state → (∃ final, body state = breaks final) ∨
      ∃ next, body state = continues next ∧ I next ∧ μ next < μ state)
    (h : I state) : ∃ fuel final, loop body fuel state = breaks final := by
  induction hμ : μ state using Nat.strong_induction_on generalizing state with
  | _ n ih =>
    rcases hbody state h with ⟨final, hbreak⟩ | ⟨next, hcontinue, hnext, hlt⟩
    · exact ⟨1, final, loop_succ_of_breaks hbreak 0⟩
    · obtain ⟨fuel, final, hloop⟩ := ih (μ next) (hμ ▸ hlt) hnext rfl
      exact ⟨fuel + 1, final, (loop_succ_of_continues hcontinue fuel).trans hloop⟩

/-- **A loop that always continues runs on.** -/
theorem loop_continues (hbody : ∀ state, I state → ∃ next, body state = continues next ∧ I next)
    (h : I state) (fuel : ℕ) : ∃ current, loop body fuel state = continues current ∧ I current := by
  induction fuel generalizing state with
  | zero => exact ⟨state, rfl, h⟩
  | succ fuel ih =>
    obtain ⟨next, hcontinue, hnext⟩ := hbody state h
    rw [loop_succ_of_continues hcontinue]
    exact ih hnext

end Iteration

/-! ### Loops over a list -/

namespace List

variable {α β : Type} {f : α → Option β} {l : List α}

/-- A loop of checks passes when every check does. -/
theorem forM_eq_ok_iff {ε : Type} {check : α → Except ε PUnit} :
    l.forM check = .ok ⟨⟩ ↔ ∀ a ∈ l, check a = .ok ⟨⟩ := by
  induction l with
  | nil => exact iff_of_true rfl (by simp)
  | cons a l ih =>
    rw [forall_mem_cons, ← ih]
    show (check a >>= fun _ ↦ l.forM check) = .ok ⟨⟩ ↔ _
    rcases check a with e | ⟨⟩
    · exact iff_of_false (by simp [bind, Except.bind]) (by simp)
    · exact (and_iff_right rfl).symm

/-- A loop over a list comes to its end when every iteration does. -/
theorem exists_mapM_eq_some {P : β → Prop} (h : ∀ a ∈ l, ∃ b, f a = some b ∧ P b) :
    ∃ results, l.mapM f = some results ∧ ∀ b ∈ results, P b := by
  induction l with
  | nil => exact ⟨[], rfl, by simp⟩
  | cons a l ih =>
    obtain ⟨⟨b, hb, hP⟩, hrest⟩ := forall_mem_cons.1 h
    obtain ⟨results, hresults, hall⟩ := ih hrest
    refine ⟨b :: results, ?_, forall_mem_cons.2 ⟨hP, hall⟩⟩
    rw [mapM_cons, hb, hresults]
    rfl

/-- What a loop over a list collects comes from an iteration. -/
theorem exists_of_mem_mapM {results : List β} (h : l.mapM f = some results) {b : β}
    (hb : b ∈ results) : ∃ a ∈ l, f a = some b := by
  induction l generalizing results with
  | nil =>
    obtain rfl := Option.some.inj h
    exact absurd hb (by simp)
  | cons a l ih =>
    rw [mapM_cons, Option.bind_eq_bind, Option.bind_eq_some_iff] at h
    obtain ⟨first, hfirst, h⟩ := h
    obtain ⟨rest, hrest, h⟩ := Option.bind_eq_some_iff.1 h
    obtain rfl := Option.some.inj h
    rcases mem_cons.1 hb with rfl | hmem
    · exact ⟨a, mem_cons_self, hfirst⟩
    · obtain ⟨found, hfound, hf⟩ := ih hrest hmem
      exact ⟨found, mem_cons_of_mem a hfound, hf⟩

end List
