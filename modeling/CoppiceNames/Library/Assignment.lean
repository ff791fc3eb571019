import Mathlib

/-!
# Assigning requests to slots by key

A table lists slots under keys. A request names a key and carries a payload; it is resolved to the
one slot that stands under its key. A list of requests covers the wanted slots when the resolved
slots are the wanted ones in some order.

Checked in that partial way, one request after the other and the slots at the end, the assignment is
a bijection: it exists exactly when the requested keys are the keys of the wanted slots as a
multiset and none of these keys is listed twice (`exists_assigns_iff`). Reordered requests get the
same payloads into the same slots (`Assigns.exists_perm`).

The second part is about the lists that slots point into: values written at some positions, with
everything else unchanged.
-/

section Assignment

variable {κ τ π : Type} [DecidableEq κ]

/-- The slots under a key. -/
def slotsOf (table : List (κ × τ)) (key : κ) : List τ :=
  (table.filter fun entry ↦ entry.1 = key).map Prod.snd

/-- A request is resolved to the one slot under its key, and its payload is kept. -/
def Resolves (table : List (κ × τ)) (request : κ × π) (assigned : τ × π) : Prop :=
  slotsOf table request.1 = [assigned.1] ∧ assigned.2 = request.2

/-- All requests are resolved, and the slots are the wanted ones. -/
structure Assigns (table wanted : List (κ × τ)) (requests : List (κ × π))
    (assigned : List (τ × π)) : Prop where
  resolved : List.Forall₂ (Resolves table) requests assigned
  covers : (assigned.map Prod.fst).Perm (wanted.map Prod.snd)

variable {table wanted : List (κ × τ)} {requests requests' : List (κ × π)}
  {assigned : List (τ × π)} {key : κ} {slot : τ} {payload : π}

theorem mem_slotsOf : slot ∈ slotsOf table key ↔ (key, slot) ∈ table := by
  simp only [slotsOf, List.mem_map, List.mem_filter, decide_eq_true_eq]
  constructor
  · rintro ⟨entry, ⟨hmem, rfl⟩, rfl⟩
    exact hmem
  · intro hmem
    exact ⟨(key, slot), ⟨hmem, rfl⟩, rfl⟩

theorem length_slotsOf [BEq κ] [LawfulBEq κ] :
    (slotsOf table key).length = (table.map Prod.fst).count key := by
  rw [slotsOf, List.length_map, List.count, List.countP_map, List.countP_eq_length_filter]
  congr 2
  funext entry
  exact Bool.eq_iff_iff.2 (by simp)

omit [DecidableEq κ] in
/-- A slot of the table stands under one key. -/
theorem key_eq_of_slot (hslots : (table.map Prod.snd).Nodup) {key' : κ}
    (h : (key, slot) ∈ table) (h' : (key', slot) ∈ table) : key = key' :=
  congrArg Prod.fst (List.inj_on_of_nodup_map hslots h h' rfl)

omit [DecidableEq κ] in
theorem exists_left_of_forall₂ {A B : Type} {R : A → B → Prop} {l : List A} {l' : List B}
    (h : List.Forall₂ R l l') {b : B} (hb : b ∈ l') : ∃ a ∈ l, R a b := by
  induction h with
  | nil => exact absurd hb (by simp)
  | @cons a b' l l' hab _ ih =>
    rcases List.mem_cons.1 hb with rfl | hb
    · exact ⟨a, List.mem_cons_self, hab⟩
    · obtain ⟨found, hfound, hR⟩ := ih hb
      exact ⟨found, List.mem_cons_of_mem a hfound, hR⟩

omit [DecidableEq κ] in
theorem exists_right_of_forall₂ {A B : Type} {R : A → B → Prop} {l : List A} {l' : List B}
    (h : List.Forall₂ R l l') {a : A} (ha : a ∈ l) : ∃ b ∈ l', R a b :=
  exists_left_of_forall₂ h.flip ha

omit [DecidableEq κ] in
theorem exists_forall₂ {A B : Type} {R : A → B → Prop} {l : List A} (h : ∀ a ∈ l, ∃ b, R a b) :
    ∃ l', List.Forall₂ R l l' := by
  induction l with
  | nil => exact ⟨[], List.Forall₂.nil⟩
  | cons a l ih =>
    obtain ⟨⟨b, hb⟩, hrest⟩ := List.forall_mem_cons.1 h
    obtain ⟨l', hl'⟩ := ih hrest
    exact ⟨b :: l', List.Forall₂.cons hb hl'⟩

/-- The keys of resolved requests, read off the slots. -/
theorem map_key_eq (hslots : (table.map Prod.snd).Nodup)
    (h : List.Forall₂ (Resolves table) requests assigned) {entries : List (κ × τ)}
    (hentries : List.Forall₂ (fun slot entry ↦ entry ∈ table ∧ entry.2 = slot)
      (assigned.map Prod.fst) entries) : requests.map Prod.fst = entries.map Prod.fst := by
  induction h generalizing entries with
  | nil =>
    cases hentries
    rfl
  | @cons request a requests assigned hresolves _ ih =>
    rw [List.map_cons, List.forall₂_cons_left_iff] at hentries
    obtain ⟨entry, rest, ⟨hmem, hslot⟩, hrest, rfl⟩ := hentries
    have hunder : (request.1, entry.2) ∈ table := by
      rw [hslot, ← mem_slotsOf, hresolves.1]
      exact List.mem_singleton_self _
    rw [List.map_cons, List.map_cons, ih hrest, key_eq_of_slot hslots hunder hmem]

theorem exists_assigned {slots : List τ}
    (h : List.Forall₂ (fun key slot ↦ slotsOf table key = [slot]) (requests.map Prod.fst) slots) :
    ∃ assigned, List.Forall₂ (Resolves table) requests assigned ∧
      assigned.map Prod.fst = slots := by
  induction requests generalizing slots with
  | nil =>
    cases h
    exact ⟨[], List.Forall₂.nil, rfl⟩
  | cons request requests ih =>
    rw [List.map_cons, List.forall₂_cons_left_iff] at h
    obtain ⟨slot, rest, hslot, hrest, rfl⟩ := h
    obtain ⟨assigned, hassigned, hslots⟩ := ih hrest
    exact ⟨(slot, request.2) :: assigned, List.Forall₂.cons ⟨hslot, rfl⟩ hassigned,
      by rw [List.map_cons, hslots]⟩

/-- **The partial checks amount to a bijection.** -/
theorem exists_assigns_iff [BEq κ] [LawfulBEq κ] (hslots : (table.map Prod.snd).Nodup)
    (hwanted : wanted ⊆ table) :
    (∃ assigned, Assigns table wanted requests assigned) ↔
      (requests.map Prod.fst).Perm (wanted.map Prod.fst) ∧
        ∀ key ∈ wanted.map Prod.fst, (table.map Prod.fst).count key = 1 := by
  constructor
  · rintro ⟨assigned, hresolved, hcovers⟩
    have hself : List.Forall₂ (fun slot entry ↦ entry ∈ table ∧ entry.2 = slot)
        (wanted.map Prod.snd) wanted := by
      rw [List.forall₂_map_left_iff, List.forall₂_same]
      exact fun entry hentry ↦ ⟨hwanted hentry, rfl⟩
    obtain ⟨entries, hentries, hperm⟩ := List.perm_comp_forall₂ hcovers hself
    have hkeys : (requests.map Prod.fst).Perm (wanted.map Prod.fst) := by
      rw [map_key_eq hslots hresolved hentries]
      exact hperm.map Prod.fst
    refine ⟨hkeys, fun key hkey ↦ ?_⟩
    obtain ⟨request, hrequest, rfl⟩ := List.mem_map.1 (hkeys.mem_iff.2 hkey)
    obtain ⟨a, -, hslot, -⟩ := exists_right_of_forall₂ hresolved hrequest
    rw [← length_slotsOf, hslot, List.length_singleton]
  · rintro ⟨hkeys, hcount⟩
    have hself : List.Forall₂ (fun key slot ↦ slotsOf table key = [slot])
        (wanted.map Prod.fst) (wanted.map Prod.snd) := by
      rw [List.forall₂_map_left_iff, List.forall₂_map_right_iff, List.forall₂_same]
      intro entry hentry
      have hone := hcount entry.1 (List.mem_map_of_mem hentry)
      rw [← length_slotsOf, List.length_eq_one_iff] at hone
      obtain ⟨slot, hslot⟩ := hone
      have hmem : entry.2 ∈ slotsOf table entry.1 := mem_slotsOf.2 (hwanted hentry)
      rw [hslot, List.mem_singleton] at hmem
      rw [hslot, hmem]
    obtain ⟨slots, hslotsOf, hperm⟩ := List.perm_comp_forall₂ hkeys hself
    obtain ⟨assigned, hassigned, rfl⟩ := exists_assigned hslotsOf
    exact ⟨assigned, hassigned, hperm⟩

namespace Assigns

variable (h : Assigns table wanted requests assigned)
include h

/-- **Reordered requests** are assigned the same. -/
theorem exists_perm (hperm : requests'.Perm requests) :
    ∃ assigned', Assigns table wanted requests' assigned' ∧ assigned'.Perm assigned := by
  obtain ⟨assigned', hresolved, hassigned⟩ := List.perm_comp_forall₂ hperm h.resolved
  exact ⟨assigned', ⟨hresolved, (hassigned.map Prod.fst).trans h.covers⟩, hassigned⟩

omit h in
/-- A reordered table assigns the same. -/
theorem of_table_perm {table' wanted' : List (κ × τ)} (h : Assigns table wanted requests assigned)
    (htable : table'.Perm table) (hwanted : wanted'.Perm wanted) :
    Assigns table' wanted' requests assigned where
  resolved := h.resolved.imp fun _ _ ⟨hslot, hpayload⟩ ↦
    ⟨List.perm_singleton.1 (hslot ▸ (htable.filter _).map Prod.snd), hpayload⟩
  covers := h.covers.trans (hwanted.symm.map Prod.snd)

/-- A wanted slot gets the payload that was requested under its key. -/
theorem exists_payload (hslots : (table.map Prod.snd).Nodup) (hwanted : wanted ⊆ table)
    (hmem : (key, slot) ∈ wanted) :
    ∃ payload, (key, payload) ∈ requests ∧ (slot, payload) ∈ assigned := by
  obtain ⟨⟨found, payload⟩, hassigned, rfl⟩ :=
    List.mem_map.1 (h.covers.mem_iff.2 (List.mem_map_of_mem hmem))
  obtain ⟨⟨key', payload'⟩, hrequest, hslot, hpayload⟩ := exists_left_of_forall₂
    h.resolved hassigned
  have hunder : (key', found) ∈ table := by
    rw [← mem_slotsOf, hslot]
    exact List.mem_singleton_self _
  obtain rfl := key_eq_of_slot hslots hunder (hwanted hmem)
  obtain rfl : payload = payload' := hpayload
  exact ⟨payload, hrequest, hassigned⟩

/-- What is assigned was requested for a wanted slot. -/
theorem exists_request (hslots : (table.map Prod.snd).Nodup) (hwanted : wanted ⊆ table)
    (hmem : (slot, payload) ∈ assigned) :
    ∃ key, (key, payload) ∈ requests ∧ (key, slot) ∈ wanted := by
  obtain ⟨⟨key, payload'⟩, hrequest, hslot, hpayload⟩ := exists_left_of_forall₂ h.resolved hmem
  have hunder : (key, slot) ∈ table := by
    rw [← mem_slotsOf, hslot]
    exact List.mem_singleton_self _
  obtain ⟨⟨key', found⟩, hfound, rfl⟩ :=
    List.mem_map.1 (h.covers.mem_iff.1 (List.mem_map_of_mem hmem))
  obtain rfl := key_eq_of_slot hslots hunder (hwanted hfound)
  obtain rfl : payload = payload' := hpayload
  exact ⟨key, hrequest, hfound⟩

/-- No slot is assigned twice. -/
theorem nodup (hslots : (table.map Prod.snd).Nodup) (hwanted : wanted.Sublist table) :
    (assigned.map Prod.fst).Nodup :=
  h.covers.nodup_iff.2 (hslots.sublist (hwanted.map Prod.snd))

end Assigns

/-! ### One request after the other -/

/-- A loop over the requests goes on from what it has resolved, and refuses a slot that is taken. -/
def ResolvedFrom (table : List (κ × τ)) (resolved : List (τ × π)) (requests : List (κ × π))
    (result : List (τ × π)) : Prop :=
  ∃ found, result = resolved ++ found ∧ List.Forall₂ (Resolves table) requests found ∧
    (result.map Prod.fst).Nodup

omit [DecidableEq κ] in
/-- One more slot is fresh. -/
theorem nodup_map_concat_iff {A B : Type} {f : A → B} {l : List A} {a : A} :
    ((l ++ [a]).map f).Nodup ↔ (l.map f).Nodup ∧ f a ∉ l.map f := by
  rw [List.map_append, List.map_singleton, List.nodup_append]
  constructor
  · rintro ⟨hl, -, hdisjoint⟩
    exact ⟨hl, fun hmem ↦ hdisjoint (f a) hmem (f a) (List.mem_singleton_self _) rfl⟩
  · rintro ⟨hl, hfresh⟩
    refine ⟨hl, List.nodup_singleton _, fun b hb c hc hbc ↦ ?_⟩
    rw [List.mem_singleton] at hc
    rw [hbc, hc] at hb
    exact hfresh hb

variable {resolved result : List (τ × π)}

theorem ResolvedFrom.subset (h : ResolvedFrom table resolved requests result) :
    resolved ⊆ result := by
  obtain ⟨found, rfl, -, -⟩ := h
  exact List.subset_append_left resolved found

/-- A loop that starts with nothing. -/
theorem resolvedFrom_start_iff : ResolvedFrom table [] requests result ↔
    List.Forall₂ (Resolves table) requests result ∧ (result.map Prod.fst).Nodup := by
  constructor
  · rintro ⟨found, rfl, hfound, hnodup⟩
    exact ⟨hfound, hnodup⟩
  · rintro ⟨hfound, hnodup⟩
    exact ⟨result, rfl, hfound, hnodup⟩

theorem resolvedFrom_nil_iff (hnodup : (resolved.map Prod.fst).Nodup) :
    ResolvedFrom table resolved [] result ↔ resolved = result := by
  constructor
  · rintro ⟨found, rfl, hfound, -⟩
    rw [List.forall₂_nil_left_iff.1 hfound, List.append_nil]
  · rintro rfl
    exact ⟨[], (List.append_nil resolved).symm, List.Forall₂.nil, hnodup⟩

theorem not_resolvedFrom_cons (hslots : slotsOf table key = []) :
    ¬ ResolvedFrom table resolved ((key, payload) :: requests) result := by
  rintro ⟨found, -, hfound, -⟩
  obtain ⟨entry, tail, ⟨hone, -⟩, -, -⟩ := List.forall₂_cons_left_iff.1 hfound
  rw [hslots] at hone
  exact absurd hone (by simp)

/-- **One request of the loop**: its key has one slot, and that slot is free. -/
theorem resolvedFrom_cons_iff {more : List τ} (hslots : slotsOf table key = slot :: more) :
    ResolvedFrom table resolved ((key, payload) :: requests) result ↔
      more = [] ∧ slot ∉ resolved.map Prod.fst ∧
        ResolvedFrom table (resolved ++ [(slot, payload)]) requests result := by
  have hsplit : ∀ tail, resolved ++ (slot, payload) :: tail =
      (resolved ++ [(slot, payload)]) ++ tail := by
    intro tail
    rw [List.append_assoc]
    rfl
  constructor
  · rintro ⟨found, rfl, hfound, hall⟩
    obtain ⟨entry, tail, ⟨hone, hpayload⟩, htail, rfl⟩ := List.forall₂_cons_left_iff.1 hfound
    rw [hslots, List.cons.injEq] at hone
    obtain rfl : entry = (slot, payload) := Prod.ext hone.1.symm hpayload
    have hfresh : ((resolved ++ [(slot, payload)]).map Prod.fst).Nodup := by
      rw [hsplit, List.map_append] at hall
      exact hall.of_append_left
    exact ⟨hone.2, (nodup_map_concat_iff.1 hfresh).2, tail, hsplit tail, htail, hall⟩
  · rintro ⟨rfl, -, found, rfl, hfound, hall⟩
    exact ⟨(slot, payload) :: found, (hsplit found).symm, List.Forall₂.cons ⟨hslots, rfl⟩ hfound,
      hall⟩

end Assignment

/-! ### Collecting slots -/

theorem mergeSort_pairwise_le (l : List ℕ) : l.mergeSort.Pairwise (· ≤ ·) := by
  have hsorted : l.mergeSort.Pairwise fun a b ↦ decide (a ≤ b) = true :=
    List.pairwise_mergeSort
      (fun a b c hab hbc ↦ by
        simp only [decide_eq_true_eq] at hab hbc ⊢
        omega)
      (fun a b ↦ by
        simp only [Bool.or_eq_true, decide_eq_true_eq]
        omega) l
  simpa using hsorted

/-- Sorting and comparing is comparing up to order. -/
theorem mergeSort_eq_iff_perm {l sorted : List ℕ} (hsorted : sorted.Pairwise (· ≤ ·)) :
    l.mergeSort = sorted ↔ l.Perm sorted := by
  constructor
  · rintro rfl
    exact (List.mergeSort_perm l _).symm
  · intro hperm
    exact ((List.mergeSort_perm l _).trans hperm).eq_of_pairwise
      (fun a b _ _ hab hba ↦ Nat.le_antisymm hab hba) (mergeSort_pairwise_le l) hsorted

theorem mergeSort_eq_mergeSort_iff_perm {l l' : List ℕ} : l.mergeSort =
    l'.mergeSort ↔ l.Perm l' := by
  rw [mergeSort_eq_iff_perm (mergeSort_pairwise_le l')]
  exact (List.mergeSort_perm l' _).congr_right l

/-! ### Writing at positions -/

section Writes

variable {α π : Type} {write : π → α → α} {targets targets' : List (ℕ × π)}
  {before middle after after' : List α}

/-- The list is changed by writing a payload at each target, and nowhere else. -/
structure Writes (write : π → α → α) (targets : List (ℕ × π)) (before after : List α) : Prop where
  listed : ∀ target ∈ targets, after[target.1]? = before[target.1]?.map (write target.2)
  unlisted : ∀ i, i ∉ targets.map Prod.fst → after[i]? = before[i]?

namespace Writes

/-- A position is there after the writes when it was there before. -/
theorem getElem?_eq_none_iff (h : Writes write targets before after) (i : ℕ) :
    after[i]? = none ↔ before[i]? = none := by
  by_cases hi : i ∈ targets.map Prod.fst
  · obtain ⟨target, htarget, rfl⟩ := List.mem_map.1 hi
    rw [h.listed target htarget, Option.map_eq_none_iff]
  · rw [h.unlisted i hi]

theorem length_eq (h : Writes write targets before after) : after.length = before.length := by
  have hle : ∀ i, after.length ≤ i ↔ before.length ≤ i := by
    intro i
    rw [← List.getElem?_eq_none_iff, h.getElem?_eq_none_iff i, List.getElem?_eq_none_iff]
  have hafter := hle after.length
  have hbefore := hle before.length
  omega

/-- What the writes leave alone. -/
theorem map_eq {β : Type} {g : α → β} (h : Writes write targets before after)
    (hg : ∀ payload a, g (write payload a) = g a) : after.map g = before.map g := by
  refine List.ext_getElem? fun i ↦ ?_
  rw [List.getElem?_map, List.getElem?_map]
  by_cases hi : i ∈ targets.map Prod.fst
  · obtain ⟨target, htarget, rfl⟩ := List.mem_map.1 hi
    rw [h.listed target htarget, Option.map_map]
    congr 1
    funext a
    exact hg target.2 a
  · rw [h.unlisted i hi]

/-- **The order of the targets does not matter.** -/
theorem unique_of_perm (h : Writes write targets before after)
    (h' : Writes write targets' before after') (hperm : targets'.Perm targets) :
    after' = after := by
  refine List.ext_getElem? fun i ↦ ?_
  by_cases hi : i ∈ targets.map Prod.fst
  · obtain ⟨target, htarget, rfl⟩ := List.mem_map.1 hi
    rw [h.listed target htarget, h'.listed target (hperm.mem_iff.2 htarget)]
  · rw [h.unlisted i hi, h'.unlisted i fun hmem ↦ hi ((hperm.map Prod.fst).mem_iff.1 hmem)]

theorem nil : Writes write [] before before :=
  ⟨fun target htarget ↦ absurd htarget (by simp), fun _ _ ↦ rfl⟩

/-- A write, and then the others. -/
theorem cons {target : ℕ × π} (htarget : Writes write [target] before middle)
    (h : Writes write targets middle after) (hfresh : target.1 ∉ targets.map Prod.fst) :
    Writes write (target :: targets) before after where
  listed t ht := by
    rcases List.mem_cons.1 ht with rfl | ht
    · rw [h.unlisted t.1 hfresh]
      exact htarget.listed t List.mem_cons_self
    · have hne : t.1 ∉ [target].map Prod.fst := by
        rw [List.map_singleton, List.mem_singleton]
        exact fun heq ↦ hfresh (heq ▸ List.mem_map_of_mem ht)
      rw [h.listed t ht, htarget.unlisted t.1 hne]
  unlisted i hi := by
    rw [List.map_cons, List.mem_cons, not_or] at hi
    rw [h.unlisted i hi.2]
    refine htarget.unlisted i fun hmem ↦ hi.1 ?_
    rwa [List.map_singleton, List.mem_singleton] at hmem

end Writes

/-- Write at each target in turn. -/
def writeAll (write : π → α → α) (targets : List (ℕ × π)) (l : List α) : List α :=
  targets.foldl (fun l target ↦ l.modify target.1 (write target.2)) l

theorem writes_modify (target : ℕ × π) (l : List α) :
    Writes write [target] l (l.modify target.1 (write target.2)) where
  listed t ht := by
    rw [List.mem_singleton.1 ht, List.getElem?_modify_eq]
    rfl
  unlisted i hi := by
    rw [List.map_singleton, List.mem_singleton] at hi
    exact List.getElem?_modify_ne _ l (Ne.symm hi)

theorem writes_writeAll (hnodup : (targets.map Prod.fst).Nodup) (l : List α) :
    Writes write targets l (writeAll write targets l) := by
  induction targets generalizing l with
  | nil => exact Writes.nil
  | cons target targets ih =>
    rw [List.map_cons, List.nodup_cons] at hnodup
    exact (writes_modify target l).cons (ih hnodup.2 _) hnodup.1

end Writes
