import CoppiceNames.Library.Checked

/-!
# Savepoints

Scripts that run against a database statement by statement. A script may open a block: a savepoint
around a part of it, released when the part returns a value and rolled back when it returns an
error. A part may also panic, which unwinds the whole script.

The scripts have two meanings. `eval` is the intended one: a block that returns an error leaves the
database as it found it. `exec` is the machine: one working database and a stack of named
savepoints, where a command finds its savepoint by name, the innermost first, and blocks all use the
same name. They agree on every script (`exec_of_eval`), so a transaction publishes what `eval`
computes or nothing (`withTransaction_eq`).

An operation of several statements realizes a checked function when it computes it and, where the
function fails, fails with the same error, whatever it wrote before (`Realizes`). Inside a block the
difference is gone.
-/

namespace Except

variable {ε α β γ : Type}

theorem map_bind (x : Except ε α) (f : α → Except ε β) (g : β → γ) :
    (x >>= f).map g = x >>= fun a ↦ (f a).map g := by
  rcases x with e | a
  · rfl
  · rfl

theorem bind_map (x : Except ε α) (f : α → β) (g : β → Except ε γ) :
    (x.map f >>= g) = x >>= fun a ↦ g (f a) := by
  rcases x with e | a
  · rfl
  · rfl

theorem ok_bind (a : α) (f : α → Except ε β) : (.ok a >>= f) = f a := rfl

end Except

/-- A script against a database `σ`, with errors `ε`. -/
inductive Script (σ ε : Type) : Type → Type 1
  | done {α : Type} (result : Except ε α) : Script σ ε α
  | panic {α : Type} : Script σ ε α
  /-- One statement, and what follows on the value it gives. -/
  | statement {A α : Type} (run : σ → A × σ) (next : A → Script σ ε α) : Script σ ε α
  /-- A part inside a savepoint, and what follows on its result. -/
  | block {A α : Type} (body : Script σ ε A) (next : Except ε A → Script σ ε α) : Script σ ε α

namespace Script

variable {σ ε A α β : Type}

/-- Run a script and then another on its result; a panic ends both. -/
def handle : Script σ ε α → (Except ε α → Script σ ε β) → Script σ ε β
  | .done result, k => k result
  | .panic, _ => .panic
  | .statement run next, k => .statement run fun a ↦ (next a).handle k
  | .block body next, k => .block body fun result ↦ (next result).handle k

/-- Run a script and then another on its value; an error ends both. -/
def bind (script : Script σ ε α) (k : α → Script σ ε β) : Script σ ε β :=
  script.handle fun result ↦
    match result with
    | .ok a => k a
    | .error e => .done (.error e)

instance : Monad (Script σ ε) where
  pure a := .done (.ok a)
  bind := Script.bind

/-- Run a script on each element, in order. -/
def forEach (f : A → Script σ ε Unit) : List A → Script σ ε Unit
  | [] => pure ()
  | a :: l => f a >>= fun _ ↦ forEach f l

/-- Read the database, or fail. -/
def query (f : σ → Except ε α) : Script σ ε α :=
  .statement (fun s ↦ (f s, s)) .done

/-- Write the database; a statement that fails leaves it as it was. -/
def execute (f : σ → Except ε σ) : Script σ ε Unit :=
  .statement (fun s ↦ match f s with
    | .ok next => (.ok (), next)
    | .error e => (.error e, s)) .done

/-- The script with a statement that fails: the first `n` statements run, the next one returns the
error. -/
def failingAt (fault : ε) : ℕ → Script σ ε α → Script σ ε α
  | _, .done result => .done result
  | _, .panic => .panic
  | 0, .statement _ _ => .done (.error fault)
  | n + 1, .statement run next => .statement run fun a ↦ (next a).failingAt fault n
  | n, .block body next => .block body fun result ↦ (next result).failingAt fault n

/-! ### The intended meaning -/

/-- How a script ends: it returns, or a panic unwinds it. -/
inductive Outcome (ε α : Type)
  | returned (result : Except ε α)
  | panicked
  deriving DecidableEq

/-- **The meaning of a script**: a block that returns an error leaves the database as it was. -/
def eval {α : Type} : Script σ ε α → σ → Outcome ε α × σ
  | .done result, s => (.returned result, s)
  | .panic, s => (.panicked, s)
  | .statement run next, s => (next (run s).1).eval (run s).2
  | .block body next, s =>
    match body.eval s with
    | (.returned (.ok a), s') => (next (.ok a)).eval s'
    | (.returned (.error e), _) => (next (.error e)).eval s
    | (.panicked, s') => (.panicked, s')

/-! ### The machine -/

/-- An open transaction: the working database and the savepoints, the innermost first. -/
structure Session (σ : Type) where
  current : σ
  savepoints : List (String × σ)

namespace Session

/-- `SAVEPOINT name`. -/
def savepoint (name : String) (session : Session σ) : Session σ :=
  { session with savepoints := (name, session.current) :: session.savepoints }

/-- `RELEASE SAVEPOINT name`: forget the innermost savepoint of that name and those inside it. -/
def release (name : String) (session : Session σ) : Option (Session σ) :=
  match session.savepoints.dropWhile fun entry ↦ entry.1 ≠ name with
  | [] => none
  | _ :: outer => some { session with savepoints := outer }

/-- `ROLLBACK TO SAVEPOINT name`: restore the innermost savepoint of that name and keep it. -/
def rollbackTo (name : String) (session : Session σ) : Option (Session σ) :=
  match session.savepoints.dropWhile fun entry ↦ entry.1 ≠ name with
  | [] => none
  | entry :: outer => some ⟨entry.2, entry :: outer⟩

@[simp]
theorem release_cons (name : String) (s saved : σ) (outer : List (String × σ)) :
    release name ⟨s, (name, saved) :: outer⟩ = some ⟨s, outer⟩ := by
  simp [release]

@[simp]
theorem rollbackTo_cons (name : String) (s saved : σ) (outer : List (String × σ)) :
    rollbackTo name ⟨s, (name, saved) :: outer⟩ = some ⟨saved, (name, saved) :: outer⟩ := by
  simp [rollbackTo]

end Session

/-- The commands after a block: `RELEASE` after a value, `ROLLBACK TO` and `RELEASE` after an error.
A command that fails gives `fault`. -/
def closeBlock (name : String) (fault : ε) (result : Except ε A) (session : Session σ) :
    Except ε A × Session σ :=
  match result with
  | .ok a =>
    match session.release name with
    | some released => (.ok a, released)
    | none => (.error fault, session)
  | .error e =>
    match session.rollbackTo name with
    | none => (.error fault, session)
    | some restored =>
      match restored.release name with
      | some released => (.error e, released)
      | none => (.error fault, restored)

/-- **The machine**: run a script in an open transaction. -/
def exec {α : Type} (name : String) (fault : ε) : Script σ ε α → Session σ →
    Outcome ε α × Session σ
  | .done result, session => (.returned result, session)
  | .panic, session => (.panicked, session)
  | .statement run next, session =>
    (next (run session.current).1).exec name fault
      { session with current := (run session.current).2 }
  | .block body next, session =>
    match body.exec name fault (session.savepoint name) with
    | (.panicked, inside) => (.panicked, inside)
    | (.returned result, inside) =>
      let closed := closeBlock name fault result inside
      (next closed.1).exec name fault closed.2

/-- Run a script in a transaction of its own: committed after a value, rolled back after an error or
a panic. -/
def withTransaction (name : String) (fault : ε) (script : Script σ ε α) (s : σ) :
    Outcome ε α × σ :=
  match script.exec name fault ⟨s, []⟩ with
  | (.returned (.ok a), session) => (.returned (.ok a), session.current)
  | (outcome, _) => (outcome, s)

/-! ### The machine computes the meaning -/

section Machine

variable (name : String) (fault : ε)

theorem closeBlock_ok (a : A) (s saved : σ) (outer : List (String × σ)) :
    closeBlock name fault (.ok a) ⟨s, (name, saved) :: outer⟩ = (.ok a, ⟨s, outer⟩) := by
  simp [closeBlock]

theorem closeBlock_error (e : ε) (s saved : σ) (outer : List (String × σ)) :
    closeBlock name fault (Except.error e : Except ε A) ⟨s, (name, saved) :: outer⟩ =
      (.error e, ⟨saved, outer⟩) := by
  simp [closeBlock]

/-- **A script leaves the savepoints around it as they were**, and computes its meaning. -/
theorem exec_of_eval (script : Script σ ε α) (s : σ) (outer : List (String × σ)) :
    (∀ result s', script.eval s = (.returned result, s') →
      script.exec name fault ⟨s, outer⟩ = (.returned result, ⟨s', outer⟩)) ∧
    ∀ s', script.eval s = (.panicked, s') →
      (script.exec name fault ⟨s, outer⟩).1 = .panicked := by
  induction script generalizing s outer with
  | done result =>
    refine ⟨fun result' s' h ↦ ?_, fun s' h ↦ ?_⟩
    · rw [eval, Prod.mk.injEq, Outcome.returned.injEq] at h
      rw [exec, h.1, h.2]
    · exact absurd h (by simp [eval])
  | panic =>
    refine ⟨fun result' s' h ↦ ?_, fun s' _ ↦ rfl⟩
    exact absurd h (by simp [eval])
  | statement run next ih => exact ih (run s).1 (run s).2 outer
  | block body next ihBody ihNext =>
    -- the block runs on top of its own savepoint
    obtain ⟨hreturned, hpanicked⟩ := ihBody s ((name, s) :: outer)
    have hopen : Session.savepoint name ⟨s, outer⟩ = ⟨s, (name, s) :: outer⟩ := rfl
    rw [eval, exec, hopen]
    rcases hbody : body.eval s with ⟨result | -, s₁⟩
    · rw [hreturned result s₁ hbody]
      rcases result with e | a
      · dsimp only
        rw [closeBlock_error]
        exact ihNext (.error e) s outer
      · dsimp only
        rw [closeBlock_ok]
        exact ihNext (.ok a) s₁ outer
    · refine ⟨fun result s' h ↦ absurd h (by simp), fun s' _ ↦ ?_⟩
      have hunwound := hpanicked s₁ hbody
      rcases hinside : body.exec name fault ⟨s, (name, s) :: outer⟩ with ⟨result | -, inside⟩
      · rw [hinside] at hunwound
        exact absurd hunwound (by simp)
      · rfl

/-- **A transaction publishes the meaning of its script, or nothing.** -/
theorem withTransaction_eq (script : Script σ ε α) (s : σ) :
    script.withTransaction name fault s =
      match script.eval s with
      | (.returned (.ok a), s') => (.returned (.ok a), s')
      | (outcome, _) => (outcome, s) := by
  obtain ⟨hreturned, hpanicked⟩ := exec_of_eval name fault script s []
  rw [withTransaction]
  rcases heval : script.eval s with ⟨result | -, s'⟩
  · rw [hreturned result s' heval]
    rcases result with e | a
    · rfl
    · rfl
  · have hunwound := hpanicked s' heval
    rcases hexec : script.exec name fault ⟨s, []⟩ with ⟨result | -, session⟩
    · rw [hexec] at hunwound
      exact absurd hunwound (by simp)
    · rfl

end Machine

/-! ### Operations of several statements -/

/-- A script and then another on its result, by their meanings. What the first one wrote stands. -/
theorem eval_handle (script : Script σ ε α) (k : Except ε α → Script σ ε β) (s : σ) :
    (script.handle k).eval s =
      match script.eval s with
      | (.returned result, s') => (k result).eval s'
      | (.panicked, s') => (.panicked, s') := by
  induction script generalizing s with
  | done result => rfl
  | panic => rfl
  | statement run next ih => exact ih (run s).1 k (run s).2
  | block body next _ ih =>
    rw [handle, eval, eval]
    rcases body.eval s with ⟨result | -, s₁⟩
    · rcases result with e | a
      · exact ih (.error e) k s
      · exact ih (.ok a) k s₁
    · rfl

/-- A script and then another on its value, by their meanings. -/
theorem eval_bind (script : Script σ ε α) (k : α → Script σ ε β) (s : σ) :
    (script >>= k).eval s =
      match script.eval s with
      | (.returned (.ok a), s') => (k a).eval s'
      | (.returned (.error e), s') => (.returned (.error e), s')
      | (.panicked, s') => (.panicked, s') := by
  refine (eval_handle script _ s).trans ?_
  rcases script.eval s with ⟨result | -, s'⟩
  · rcases result with e | a
    · rfl
    · rfl
  · rfl

/-- The script computes the checked function, and fails with its errors. What it wrote before it
failed is left open. -/
structure Realizes (script : Script σ ε α) (f : σ → Except ε (α × σ)) : Prop where
  ok : ∀ {s a s'}, f s = .ok (a, s') → script.eval s = (.returned (.ok a), s')
  error : ∀ {s e}, f s = .error e → (script.eval s).1 = .returned (.error e)

namespace Realizes

variable {script : Script σ ε α} {f g : σ → Except ε (α × σ)}

theorem congr (h : Realizes script f) (hsame : ∀ s, g s = f s) : Realizes script g where
  ok := fun {s _ _} hg ↦ h.ok ((hsame s).symm.trans hg)
  error := fun {s _} hg ↦ h.error ((hsame s).symm.trans hg)

theorem done (result : Except ε α) :
    Realizes (.done result) fun s : σ ↦ result.map (·, s) where
  ok := by
    intro s a s' h
    obtain ⟨b, rfl, hb⟩ := Except.map_eq_ok_iff.1 h
    rw [Prod.mk.injEq] at hb
    rw [eval, hb.1, hb.2]
  error := by
    intro s e h
    rcases result with e' | a
    · rw [Except.map, Except.error.injEq] at h
      rw [eval, h]
    · exact absurd h (by simp [Except.map])

theorem query (f : σ → Except ε α) : Realizes (query f) fun s ↦ (f s).map (·, s) where
  ok := fun {s _ _} h ↦ (done (f s)).ok h
  error := fun {s _} h ↦ (done (f s)).error h

theorem execute (f : σ → Except ε σ) : Realizes (execute f) fun s ↦ (f s).map ((), ·) where
  ok := by
    intro s a s' h
    obtain ⟨next, hnext, hpair⟩ := Except.map_eq_ok_iff.1 h
    rw [Prod.mk.injEq] at hpair
    rw [Script.execute, eval, hnext, ← hpair.2]
    rfl
  error := by
    intro s e h
    rcases hf : f s with e' | next
    · rw [hf, Except.map, Except.error.injEq] at h
      rw [Script.execute, eval, hf, ← h]
      rfl
    · rw [hf] at h
      exact absurd h (by simp [Except.map])

/-- **One after the other.** -/
theorem bind {k : α → Script σ ε β} {g : α → σ → Except ε (β × σ)} (h : Realizes script f)
    (hk : ∀ a, Realizes (k a) (g a)) :
    Realizes (script >>= k) fun s ↦ f s >>= fun r ↦ g r.1 r.2 where
  ok := by
    intro s b s' hb
    obtain ⟨⟨a, middle⟩, ha, hrest⟩ := Except.bind_eq_ok_iff.1 hb
    rw [eval_bind, h.ok ha]
    exact (hk a).ok hrest
  error := by
    intro s e he
    rw [eval_bind]
    rcases hf : f s with e' | ⟨a, middle⟩
    · rw [hf] at he
      have hsame : e' = e := Except.error.inj he
      have hfirst := h.error hf
      rcases heval : script.eval s with ⟨outcome, s'⟩
      rw [heval] at hfirst
      rw [show outcome = _ from hfirst, hsame]
    · rw [hf] at he
      rw [h.ok hf]
      exact (hk a).error he

/-- **A loop**, from its body. -/
theorem forEach {body : A → Script σ ε Unit} {step : σ → A → Except ε σ}
    (h : ∀ a, Realizes (body a) fun s ↦ (step s a).map ((), ·)) (l : List A) :
    Realizes (forEach body l) fun s ↦ (l.foldlM step s).map ((), ·) := by
  induction l with
  | nil => exact (done (.ok ())).congr fun s ↦ rfl
  | cons a l ih =>
    refine ((h a).bind fun _ ↦ ih).congr fun s ↦ ?_
    rw [List.foldlM_cons]
    rcases step s a with e | next
    · rfl
    · rfl

end Realizes

/-! ### A statement that fails -/

/-- The number of statements that a script runs, its blocks apart. -/
def steps {α : Type} : Script σ ε α → σ → ℕ
  | .done _, _ => 0
  | .panic, _ => 0
  | .statement run next, s => (next (run s).1).steps (run s).2 + 1
  | .block body next, s =>
    match body.eval s with
    | (.returned (.ok a), s') => (next (.ok a)).steps s'
    | (.returned (.error e), _) => (next (.error e)).steps s
    | (.panicked, _) => 0

/-- A statement that fails shows exactly when it is reached. -/
theorem eval_failingAt (fault : ε) (n : ℕ) (script : Script σ ε α) (s : σ) :
    (n < script.steps s → ((script.failingAt fault n).eval s).1 = .returned (.error fault)) ∧
    (¬ n < script.steps s → (script.failingAt fault n).eval s = script.eval s) := by
  induction script generalizing n s with
  | done result => exact ⟨fun h ↦ absurd h (Nat.not_lt_zero n), fun _ ↦ rfl⟩
  | panic => exact ⟨fun h ↦ absurd h (Nat.not_lt_zero n), fun _ ↦ rfl⟩
  | statement run next ih =>
    rcases n with - | n
    · exact ⟨fun _ ↦ rfl, fun h ↦ absurd (Nat.succ_pos _) h⟩
    · have hrest := ih (run s).1 n (run s).2
      rw [steps, failingAt, eval, eval]
      simpa only [Nat.add_lt_add_iff_right] using hrest
  | block body next _ ih =>
    rw [steps, failingAt, eval, eval]
    rcases body.eval s with ⟨result | -, s₁⟩
    · rcases result with e | a
      · exact ih (.error e) n s
      · exact ih (.ok a) n s₁
    · exact ⟨fun h ↦ absurd h (Nat.not_lt_zero n), fun _ ↦ rfl⟩

/-! ### Scripts on a part of the database -/

/-- A script of one part of the database. -/
def onFst {α : Type} {W : Type} : Script σ ε α → Script (σ × W) ε α
  | .done result => .done result
  | .panic => .panic
  | .statement run next =>
    .statement (fun s ↦ ((run s.1).1, (run s.1).2, s.2)) fun a ↦ (next a).onFst
  | .block body next => .block body.onFst fun result ↦ (next result).onFst

/-- It leaves the other part alone. -/
theorem eval_onFst {W : Type} (script : Script σ ε α) (s : σ × W) :
    script.onFst.eval s = ((script.eval s.1).1, (script.eval s.1).2, s.2) := by
  induction script generalizing s with
  | done result => rfl
  | panic => rfl
  | statement run next ih => exact ih (run s.1).1 ((run s.1).2, s.2)
  | block body next ihBody ihNext =>
    rw [onFst, eval, eval, ihBody]
    rcases body.eval s.1 with ⟨result | -, s₁⟩
    · rcases result with e | a
      · exact ihNext (.error e) s
      · exact ihNext (.ok a) (s₁, s.2)
    · rfl

end Script
