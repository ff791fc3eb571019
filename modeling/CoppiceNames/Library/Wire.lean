import Mathlib

/-!
# Fixed-width integers and readers over byte strings

The general half of a hand-written wire codec. Integers travel as a fixed number of bytes in
little- or big-endian order; a decoder is a **reader**, a stateful computation that takes bytes off
the front of what remains or fails.

One property carries every round trip: a reader **recognises** a relation between values and byte
strings when it returns `a` exactly on the strings that begin with an encoding of `a`, and leaves
what follows (`Reader.Recognises`). Read from right to left it says that decoding inverts encoding,
from left to right that nothing else decodes to the same value. It composes along `>>=`, so a
format's specification is assembled from its fields'.
-/

/-! ### Little- and big-endian integers -/

/-- The `k` low-order bytes of `v`, least significant first. -/
def leBytes : ℕ → ℕ → List UInt8
  | 0, _ => []
  | k + 1, v => UInt8.ofNat v :: leBytes k (v / 256)

/-- The number whose little-endian digits are the bytes. -/
def leNat : List UInt8 → ℕ
  | [] => 0
  | b :: bs => b.toNat + 256 * leNat bs

/-- The `k` low-order bytes of `v`, most significant first. -/
def beBytes (k v : ℕ) : List UInt8 :=
  (leBytes k v).reverse

/-- The number whose big-endian digits are the bytes. -/
def beNat (bs : List UInt8) : ℕ :=
  leNat bs.reverse

@[simp]
theorem leBytes_length (k v : ℕ) : (leBytes k v).length = k := by
  induction k generalizing v with
  | zero => rfl
  | succ k ih => rw [leBytes, List.length_cons, ih]

@[simp]
theorem beBytes_length (k v : ℕ) : (beBytes k v).length = k := by
  rw [beBytes, List.length_reverse, leBytes_length]

theorem leNat_leBytes {k v : ℕ} (h : v < 256 ^ k) : leNat (leBytes k v) = v := by
  induction k generalizing v with
  | zero =>
    rw [pow_zero, Nat.lt_one_iff] at h
    rw [h]
    rfl
  | succ k ih =>
    have hdiv : v / 256 < 256 ^ k := by
      rw [pow_succ] at h
      exact Nat.div_lt_of_lt_mul (by rwa [Nat.mul_comm])
    rw [leBytes, leNat, ih hdiv, UInt8.toNat_ofNat']
    exact Nat.mod_add_div v 256

theorem leNat_lt (bs : List UInt8) : leNat bs < 256 ^ bs.length := by
  induction bs with
  | nil => simp [leNat]
  | cons b bs ih =>
    have hb : b.toNat < 256 := b.toNat_lt
    rw [leNat, List.length_cons, pow_succ]
    omega

theorem leBytes_leNat (bs : List UInt8) : leBytes bs.length (leNat bs) = bs := by
  induction bs with
  | nil => rfl
  | cons b bs ih =>
    have hb : b.toNat < 256 := b.toNat_lt
    have hlow : UInt8.ofNat (b.toNat + 256 * leNat bs) = b := by
      rw [← UInt8.toNat_inj, UInt8.toNat_ofNat']
      omega
    have hhigh : (b.toNat + 256 * leNat bs) / 256 = leNat bs := by omega
    rw [List.length_cons, leNat, leBytes, hlow, hhigh, ih]

theorem beNat_beBytes {k v : ℕ} (h : v < 256 ^ k) : beNat (beBytes k v) = v := by
  rw [beNat, beBytes, List.reverse_reverse, leNat_leBytes h]

theorem beBytes_inj {k v w : ℕ} (hv : v < 256 ^ k) (hw : w < 256 ^ k)
    (h : beBytes k v = beBytes k w) : v = w := by
  rw [← beNat_beBytes hv, h, beNat_beBytes hw]

theorem beNat_lt (bs : List UInt8) : beNat bs < 256 ^ bs.length := by
  simpa [beNat] using leNat_lt bs.reverse

theorem beBytes_beNat (bs : List UInt8) : beBytes bs.length (beNat bs) = bs := by
  have h := leBytes_leNat bs.reverse
  rw [List.length_reverse] at h
  rw [beBytes, beNat, h, List.reverse_reverse]

/-! ### Readers -/

/-- A computation that takes bytes off the front of what remains, or fails. -/
abbrev Reader (ε : Type) := StateT (List UInt8) (Except ε)

namespace Reader

variable {ε α β : Type}

/-- Take exactly `n` bytes, failing with `e` when fewer remain. -/
def bytes (n : ℕ) (e : ε) : Reader ε (List UInt8) := fun remaining ↦
  if remaining.length < n then .error e else .ok (remaining.take n, remaining.drop n)

/-- Run a reader to a value, failing with `e` when bytes are left over. -/
def runAll (r : Reader ε α) (e : ε) (input : List UInt8) : Except ε α :=
  match r input with
  | .error err => .error err
  | .ok (a, remaining) => if remaining.isEmpty then .ok a else .error e

/-- A sequence of two readers succeeds exactly when both do, one after the other. -/
theorem bind_eq_ok_iff {r : Reader ε α} {f : α → Reader ε β} {input rest : List UInt8} {b : β} :
    (r >>= f) input = .ok (b, rest) ↔
      ∃ a mid, r input = .ok (a, mid) ∧ f a mid = .ok (b, rest) := by
  show (r input >>= fun p ↦ f p.1 p.2) = .ok (b, rest) ↔ _
  rcases hr : r input with e | ⟨a, mid⟩
  · constructor
    · intro h
      cases h
    · rintro ⟨a, mid, h, -⟩
      cases h
  · constructor
    · intro h
      exact ⟨a, mid, rfl, h⟩
    · rintro ⟨a', mid', h, hf⟩
      cases h
      exact hf

theorem pure_eq_ok_iff {a b : α} {input rest : List UInt8} :
    (pure a : Reader ε α) input = .ok (b, rest) ↔ a = b ∧ input = rest := by
  show (Except.ok (a, input) : Except ε (α × List UInt8)) = .ok (b, rest) ↔ _
  rw [Except.ok.injEq, Prod.mk.injEq]

theorem bytes_eq_ok_iff {n : ℕ} {e : ε} {input out rest : List UInt8} :
    bytes n e input = .ok (out, rest) ↔ out.length = n ∧ input = out ++ rest := by
  rw [bytes]
  constructor
  · intro h
    split at h
    · cases h
    · cases h
      exact ⟨by rw [List.length_take]; omega, (List.take_append_drop n input).symm⟩
  · rintro ⟨hlen, rfl⟩
    rw [if_neg (by rw [List.length_append]; omega), List.take_left' hlen, List.drop_left' hlen]

theorem runAll_eq_ok_iff {r : Reader ε α} {e : ε} {input : List UInt8} {a : α} :
    r.runAll e input = .ok a ↔ r input = .ok (a, []) := by
  rw [runAll]
  rcases hr : r input with err | ⟨b, rest⟩
  · simp
  · rcases rest with - | ⟨x, xs⟩ <;> simp

/-! ### Recognised formats -/

/-- The reader returns `a` exactly on the strings that begin with an encoding of `a`, and leaves
what follows the encoding. -/
def Recognises (r : Reader ε α) (R : α → List UInt8 → Prop) : Prop :=
  ∀ input a rest, r input = .ok (a, rest) ↔ ∃ e, R a e ∧ input = e ++ rest

theorem Recognises.pure (a : α) :
    Recognises (Pure.pure a : Reader ε α) fun b e ↦ a = b ∧ e = [] := by
  intro input b rest
  rw [pure_eq_ok_iff]
  constructor
  · rintro ⟨hab, rfl⟩
    exact ⟨[], ⟨hab, rfl⟩, rfl⟩
  · rintro ⟨e, ⟨hab, rfl⟩, rfl⟩
    exact ⟨hab, rfl⟩

theorem Recognises.bytes (n : ℕ) (err : ε) :
    Recognises (Reader.bytes n err) fun out e ↦ out.length = n ∧ e = out := by
  intro input out rest
  rw [bytes_eq_ok_iff]
  constructor
  · rintro ⟨hlen, hinput⟩
    exact ⟨out, ⟨hlen, rfl⟩, hinput⟩
  · rintro ⟨e, ⟨hlen, rfl⟩, hinput⟩
    exact ⟨hlen, hinput⟩

/-- Formats in sequence: an encoding of the whole is one of the first part, then one of the
second. -/
theorem Recognises.bind {r : Reader ε α} {f : α → Reader ε β} {R : α → List UInt8 → Prop}
    {S : α → β → List UInt8 → Prop} (hr : Recognises r R) (hf : ∀ a, Recognises (f a) (S a)) :
    Recognises (r >>= f) fun b e ↦ ∃ a e₁ e₂, R a e₁ ∧ S a b e₂ ∧ e = e₁ ++ e₂ := by
  intro input b rest
  rw [bind_eq_ok_iff]
  constructor
  · rintro ⟨a, mid, h₁, h₂⟩
    obtain ⟨e₁, hR, rfl⟩ := (hr _ _ _).1 h₁
    obtain ⟨e₂, hS, rfl⟩ := (hf a _ _ _).1 h₂
    exact ⟨e₁ ++ e₂, ⟨a, e₁, e₂, hR, hS, rfl⟩, (List.append_assoc _ _ _).symm⟩
  · rintro ⟨e, ⟨a, e₁, e₂, hR, hS, rfl⟩, rfl⟩
    rw [List.append_assoc]
    exact ⟨a, e₂ ++ rest, (hr _ _ _).2 ⟨e₁, hR, rfl⟩, (hf a _ _ _).2 ⟨e₂, hS, rfl⟩⟩

/-- Recognition depends only on the relation's extension. -/
theorem Recognises.congr {r : Reader ε α} {R S : α → List UInt8 → Prop} (hr : Recognises r R)
    (h : ∀ a e, R a e ↔ S a e) : Recognises r S := by
  intro input a rest
  rw [hr]
  exact exists_congr fun e ↦ and_congr_left fun _ ↦ h a e

/-- A whole input is accepted exactly when it is an encoding, with nothing after it. -/
theorem Recognises.runAll {r : Reader ε α} {R : α → List UInt8 → Prop} {err : ε}
    (hr : Recognises r R) {input : List UInt8} {a : α} :
    r.runAll err input = .ok a ↔ R a input := by
  rw [runAll_eq_ok_iff, hr]
  constructor
  · rintro ⟨e, hR, rfl⟩
    rwa [List.append_nil]
  · intro hR
    exact ⟨input, hR, (List.append_nil _).symm⟩

/-- An encoding with bytes after it is rejected for those bytes, so no encoding extends another. -/
theorem Recognises.runAll_append {r : Reader ε α} {R : α → List UInt8 → Prop} {err : ε}
    (hr : Recognises r R) {input more : List UInt8} {a : α} (h : R a input) (hmore : more ≠ []) :
    r.runAll err (input ++ more) = .error err := by
  have hrun : r (input ++ more) = .ok (a, more) := (hr _ _ _).2 ⟨input, h, rfl⟩
  rw [Reader.runAll, hrun]
  exact if_neg (by simpa using hmore)

end Reader
