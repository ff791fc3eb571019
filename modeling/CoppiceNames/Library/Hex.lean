import CoppiceNames.Library.OrderedMap

/-!
# Hexadecimal text

Lower-case hexadecimal text of a byte string. Text is ordered by its characters; the digits stand in
the character table in the order of their values, so the text of byte strings is ordered as the byte
strings are (`compare_hexText`). Sorting hexadecimal keys therefore sorts the values behind them
(`ascending_sortedBy`).
-/

open Std

/-- The two digits of a byte. -/
def hexByte (b : UInt8) : List Char :=
  [Nat.digitChar (b.toNat / 16), Nat.digitChar (b.toNat % 16)]

/-- `bytes.hex()`. -/
def hexText (bytes : List UInt8) : List Char :=
  bytes.flatMap hexByte

/-- The digits are ordered by their values. -/
theorem compare_digitChar {a b : ℕ} (ha : a < 16) (hb : b < 16) :
    compare (Nat.digitChar a) (Nat.digitChar b) = compare a b := by
  have hall : ∀ x y : Fin 16, compare (Nat.digitChar x) (Nat.digitChar y) =
    compare x.val y.val := by
    decide
  exact hall ⟨a, ha⟩ ⟨b, hb⟩

/-- A byte is compared by its upper digit first. -/
theorem compare_byte (a b : UInt8) : compare a b =
    (compare (a.toNat / 16) (b.toNat / 16)).then (compare (a.toNat % 16) (b.toNat % 16)) := by
  have hbyte : compare a b = compare a.toNat b.toNat := by
    rw [Nat.compare_eq_ite_lt, show compare a b = compareOfLessAndEq a b from rfl,
      compareOfLessAndEq]
    simp only [UInt8.lt_iff_toNat_lt, ← UInt8.toNat_inj]
    split_ifs <;> first | rfl | omega
  rw [hbyte]
  rcases Nat.lt_trichotomy (a.toNat / 16) (b.toNat / 16) with h | h | h
  · rw [Nat.compare_eq_lt.2 h, Nat.compare_eq_lt.2 (by omega)]
    rfl
  · rw [Nat.compare_eq_eq.2 h]
    rcases Nat.lt_trichotomy a.toNat b.toNat with h' | h' | h'
    · rw [Nat.compare_eq_lt.2 h', Nat.compare_eq_lt.2 (by omega)]
      rfl
    · rw [Nat.compare_eq_eq.2 h', Nat.compare_eq_eq.2 (by omega)]
      rfl
    · rw [Nat.compare_eq_gt.2 h', Nat.compare_eq_gt.2 (by omega)]
      rfl
  · rw [Nat.compare_eq_gt.2 h, Nat.compare_eq_gt.2 (by omega)]
    rfl

/-- **Hexadecimal text keeps the order of byte strings.** -/
theorem compare_hexText (as bs : List UInt8) : compare (hexText as) (hexText bs) =
    compare as bs := by
  induction as generalizing bs with
  | nil =>
    cases bs with
    | nil => rfl
    | cons b bs => rfl
  | cons a as ih =>
    cases bs with
    | nil => rfl
    | cons b bs =>
      have htext : ∀ (c : UInt8) (cs : List UInt8), hexText (c :: cs) =
          Nat.digitChar (c.toNat / 16) :: Nat.digitChar (c.toNat % 16) :: hexText cs :=
        fun _ _ ↦ rfl
      have hdigit := fun c : UInt8 ↦ show c.toNat / 16 < 16 by have := c.toNat_lt; omega
      have hdigit' := fun c : UInt8 ↦ Nat.mod_lt c.toNat (show 16 > 0 by decide)
      rw [htext, htext, List.compare_cons_cons, List.compare_cons_cons, List.compare_cons_cons, ih,
        compare_digitChar (hdigit a) (hdigit b), compare_digitChar (hdigit' a) (hdigit' b),
        compare_byte, Ordering.then_assoc]

/-- The order of the hexadecimal text. -/
def HexLE {K : Type} (bytes : K → List UInt8) (a b : K) : Prop :=
  (compare (hexText (bytes a)) (hexText (bytes b))).isLE = true

instance {K : Type} (bytes : K → List UInt8) : DecidableRel (HexLE bytes) := fun a b ↦
  inferInstanceAs (Decidable ((compare (hexText (bytes a)) (hexText (bytes b))).isLE = true))

instance {K : Type} (bytes : K → List UInt8) : Std.Total (HexLE bytes) := ⟨fun a b ↦ by
  have hswap : compare (hexText (bytes b)) (hexText (bytes a)) =
      (compare (hexText (bytes a)) (hexText (bytes b))).swap := OrientedCmp.eq_swap
  rw [HexLE, HexLE, hswap]
  rcases compare (hexText (bytes a)) (hexText (bytes b)) with - | - | - <;> simp⟩

instance {K : Type} (bytes : K → List UInt8) : IsTrans K (HexLE bytes) :=
  ⟨fun _ _ _ ↦ TransCmp.isLE_trans⟩

/-- `sorted`, by the hexadecimal text of the keys. -/
def sortedByHex {K : Type} (bytes : K → List UInt8) (keys : List K) : List K :=
  keys.insertionSort (HexLE bytes)

theorem mem_sortedByHex {K : Type} {bytes : K → List UInt8} {keys : List K} {k : K} :
    k ∈ sortedByHex bytes keys ↔ k ∈ keys :=
  List.mem_insertionSort _

/-- Distinct keys come out in ascending order. -/
theorem ascending_sortedByHex {K : Type} [Ord K] [TransOrd K] [LawfulEqOrd K]
    {bytes : K → List UInt8} (hbytes : ∀ a b, compare a b = compare (bytes a) (bytes b))
    {keys : List K} (hkeys : keys.Nodup) :
    OrderedMap.Ascending (fun k ↦ k) (sortedByHex bytes keys) := by
  have hsorted : (sortedByHex bytes keys).Pairwise (HexLE bytes) :=
    List.pairwise_insertionSort (HexLE bytes) keys
  have hnodup : (sortedByHex bytes keys).Nodup :=
    (List.perm_insertionSort (HexLE bytes) keys).nodup_iff.2 hkeys
  refine (hsorted.and hnodup).imp fun {a b} h ↦ ?_
  have hle : (compare a b).isLE = true := by
    rw [hbytes, ← compare_hexText]
    exact h.1
  rcases hcompare : compare a b with - | - | -
  · rfl
  · exact absurd (LawfulEqOrd.eq_of_compare hcompare) h.2
  · rw [hcompare] at hle
    exact absurd hle (by decide)
