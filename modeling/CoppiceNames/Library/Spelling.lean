import CoppiceNames.Library.OrderedMap

/-!
# Spellings

A checked reader and a writer for the same values. The reader may accept more than the writer
writes; `Reads parse write R` says how much more: an input is read as a value exactly when it is
related by `R` to what is written for the value, and that is read as the value too. So `R` lists the
spellings of a value, and a value that is read from one spelling is read from all of them.

The two rules lift this through a list, entry by entry (`Reads.mapM`), and through a stored map,
whose entries may come in any order (`Reads.loadAll`).
-/

/-- The reader accepts for a value the inputs `R`-related to what is written for it, if it accepts
that. -/
def Reads {A B ε : Type} (parse : A → Except ε B) (write : B → A) (R : A → A → Prop) : Prop :=
  ∀ a b, parse a = .ok b ↔ R a (write b) ∧ parse (write b) = .ok b

namespace Reads

variable {A B ε : Type} {parse : A → Except ε B} {write : B → A} {R : A → A → Prop}

/-- A value read from one spelling is read from every one of them. -/
theorem iff_of_read (h : Reads parse write R) {a a' : A} {b : B} (hread : parse a = .ok b) :
    parse a' = .ok b ↔ R a' (write b) := by
  rw [h a' b]
  exact and_iff_left ((h a b).1 hread).2

/-- A reader that accepts only what is written. -/
theorem of_eq (h : ∀ {a b}, parse a = .ok b → a = write b) : Reads parse write Eq := by
  intro a b
  constructor
  · intro hread
    have hsame := h hread
    rw [hsame] at hread
    exact ⟨hsame, hread⟩
  · intro hwritten
    rw [hwritten.1]
    exact hwritten.2

/-- **Lists**: entry by entry. -/
theorem mapM (h : Reads parse write R) :
    Reads (fun l : List A ↦ l.mapM parse) (List.map write) (List.Forall₂ R) := by
  intro l l'
  dsimp only
  rw [Except.mapM_eq_ok_iff, Except.mapM_eq_ok_iff, List.forall₂_map_left_iff,
    List.forall₂_map_right_iff, List.forall₂_same]
  constructor
  · intro hread
    refine ⟨hread.imp fun a b hab ↦ ((h a b).1 hab).1, fun b hb ↦ ?_⟩
    obtain ⟨a, -, hab⟩ := (Except.mem_iff_of_mapM_eq_ok (Except.mapM_eq_ok_iff.2 hread)).1 hb
    exact ((h a b).1 hab).2
  · intro hspelled
    obtain ⟨hrelated, hwritten⟩ := hspelled
    induction hrelated with
    | nil => exact .nil
    | @cons a b l l' hab _ ih =>
      rw [List.forall_mem_cons] at hwritten
      exact .cons ((h a b).2 ⟨hab, hwritten.1⟩) (ih hwritten.2)

end Reads

section Maps

variable {K V A ε : Type} [Ord K] [Std.TransOrd K] [Std.LawfulEqOrd K]
  {parse : A → Except ε (K × V)} {write : K × V → A} {R : A → A → Prop}

/-- A map is written entry by entry and read back when every entry is. -/
theorem Reads.loadAll_toList_iff (h : Reads parse write R) (duplicate : ε) (m : OrderedMap K V) :
    OrderedMap.loadAll parse duplicate ∅ (m.toList.map write) = .ok m ↔
      ∀ e ∈ m.toList, parse (write e) = .ok e := by
  classical
  refine ⟨fun hload e he ↦ ?_, OrderedMap.loadAll_toList duplicate m⟩
  rcases (OrderedMap.getElem?_loadAll hload).1
    (OrderedMap.getElem?_eq_some_iff_mem_toList.2 he) with hempty | ⟨a, -, hread⟩
  · exact absurd hempty (by simp)
  · exact ((h a e).1 hread).2

/-- **Stored maps**: entry by entry, in any order. -/
theorem Reads.loadAll (h : Reads parse write R) (duplicate : ε) :
    Reads (OrderedMap.loadAll parse duplicate ∅) (fun m : OrderedMap K V ↦ m.toList.map write)
      (Relation.Comp (List.Forall₂ R) List.Perm) := by
  intro stored m
  dsimp only
  rw [h.loadAll_toList_iff, OrderedMap.loadAll_eq_ok_iff]
  constructor
  · intro hread
    obtain ⟨parsed, hparsed, hperm⟩ := hread
    have hspelled := h.mapM stored parsed
    dsimp only at hspelled
    rw [Except.mapM_eq_ok_iff, Except.mapM_eq_ok_iff, List.forall₂_map_left_iff,
      List.forall₂_same] at hspelled
    obtain ⟨hrelated, hwritten⟩ := hspelled.1 hparsed
    exact ⟨⟨parsed.map write, hrelated, hperm.map write⟩,
      fun e he ↦ hwritten e (hperm.mem_iff.2 he)⟩
  · intro hspelled
    obtain ⟨⟨middle, hrelated, hperm⟩, hwritten⟩ := hspelled
    -- the related inputs are the written entries in another order
    have hentries : List.Forall₂ (fun a e ↦ a = write e) (m.toList.map write) m.toList := by
      rw [List.forall₂_map_left_iff, List.forall₂_same]
      exact fun e _ ↦ rfl
    obtain ⟨parsed, hsame, hparsed⟩ := List.perm_comp_forall₂ hperm hentries
    have hmiddle : middle = parsed.map write := by
      rw [← List.forall₂_eq_eq_eq, List.forall₂_map_right_iff]
      exact hsame
    rw [hmiddle] at hrelated
    have hspelled := (h.mapM stored parsed).2 ⟨hrelated, by
      dsimp only
      rw [Except.mapM_eq_ok_iff, List.forall₂_map_left_iff, List.forall₂_same]
      exact fun e he ↦ hwritten e (hparsed.mem_iff.1 he)⟩
    exact ⟨parsed, Except.mapM_eq_ok_iff.1 hspelled, hparsed⟩

end Maps
