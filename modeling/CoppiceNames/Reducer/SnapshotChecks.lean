import CoppiceNames.Reducer.RoundTrip

/-!
# What the checks of the loader are worth

`load_snapshot` validates every stored record against the tip it belongs to, and every journal by
itself. Two things it does not look at. A stored head may be terminal after the end of its lease.
And a journal may lack an entry for a record made at its own height; the record then stays behind
when the journal's block is rolled back. `StoredReducer.Covered` says that neither is the case, and
it is exactly what makes the loaded state, and all states it can be rolled back to, sound
(`loaded_states_sound_iff`).
-/

open Std hiding not_le not_lt

namespace CoppiceNames

/-- A split of one of two related lists splits the other. -/
theorem exists_split_of_forall₂ {A B : Type} {R : A → B → Prop} {as : List A} {older later : List B}
    {b : B} (h : List.Forall₂ R as (older ++ b :: later)) :
    ∃ older' a later', as = older' ++ a :: later' ∧ R a b ∧ List.Forall₂ R later' later := by
  induction older generalizing as with
  | nil =>
    obtain ⟨a, later', hab, hlater, rfl⟩ := List.forall₂_cons_right_iff.1 h
    exact ⟨[], a, later', rfl, hab, hlater⟩
  | cons c older ih =>
    obtain ⟨a, rest, -, hrest, rfl⟩ := List.forall₂_cons_right_iff.1 h
    obtain ⟨older', a', later', rfl, hab, hlater⟩ := ih hrest
    exact ⟨a :: older', a', later', rfl, hab, hlater⟩

theorem NameId.eq_of_bytes_eq {a b : NameId} (h : a.bytes = b.bytes) : a = b := by
  rcases a with ⟨bytes, ha⟩
  subst h
  rfl

/-! ### Sound states -/

/-- A COMMIT at a tip: at or after activation, and below its lifetime. -/
structure CommitRef.SoundAt (parameters : Parameters) (tip : U32)
    (reference : CommitRef) : Prop where
  activation_le : parameters.activationHeight ≤ reference.height
  height_le : reference.height ≤ tip
  age_lt : tip.val - reference.height.val < parameters.commitTtlBlocks.val

section SnapshotChecks

variable [Primitives]

/-- A head at a tip: produced by then, with its lease, and either active or in its cooldown. -/
structure Head.SoundAt (parameters : Parameters) (tip : U32) (head : Head) : Prop where
  producer_le : head.producer.height ≤ tip
  expiry : head.expiryHeight.val = head.producer.height.val + parameters.leaseBlocks.val
  active : head.terminalHeight = none → tip < head.expiryHeight
  terminal : ∀ x, head.terminalHeight = some x → head.producer.height ≤ x ∧ x ≤ tip ∧
    x ≤ head.expiryHeight ∧ tip.val < x.val + parameters.cooldownBlocks.val

/-- Every record is sound at the tip; without a tip there are no records. -/
structure Reducer.Sound (parameters : Parameters) (reducer : Reducer) : Prop where
  head : ∀ (nameId : NameId) (head : Head), reducer.heads[nameId]? = some head →
    ∃ tip, reducer.tipHeight = some tip ∧ head.SoundAt parameters tip
  commit : ∀ (reference : CommitRef) (commitment : Commitment),
    reducer.commits[reference]? = some commitment →
    ∃ tip, reducer.tipHeight = some tip ∧ reference.SoundAt parameters tip

/-- One retained tip is rolled back. -/
def Reducer.RollsBack (reducer next : Reducer) : Prop :=
  ∃ hash delta, reducer.rollbackTipDetailed hash = (.ok delta, next)

/-! ### Stored states -/

/-- The stored value of a key before all stored journals of a list, oldest first. -/
def storedBefore {A V : Type} [BEq A] (current : List (A × V)) :
    List (List (A × Option V)) → A → Option V
  | [], k => current.lookup k
  | journal :: later, k => (journal.lookup k).getD (storedBefore current later k)

/-- A stored head is terminal by the end of its lease. -/
def StoredHead.EndsInLease (head : StoredHead) : Prop :=
  ∀ x, head.terminalHeight = some x → x ≤ head.expiryHeight

/-- **What the loader does not check.** No stored head is terminal after its lease, and every
retained journal has an entry for each record of its height: each head that was produced or became
terminal there, and each COMMIT. -/
structure StoredReducer.Covered (stored : StoredReducer) : Prop where
  lease : ∀ (nameId : NameId) (head : StoredHead),
    stored.heads.lookup nameId.bytes = some head → head.EndsInLease
  journaledLease : ∀ undo ∈ stored.history, ∀ (nameId : NameId) (head : StoredHead),
    undo.heads.lookup nameId.bytes = some (some head) → head.EndsInLease
  heads : ∀ older undo later, stored.history = older ++ undo :: later →
    ∀ (nameId : NameId) (head : StoredHead),
      storedBefore stored.heads (later.map StoredUndo.heads) nameId.bytes = some head →
      undo.heads.lookup nameId.bytes = none →
      head.producer.height ≠ undo.height ∧ head.terminalHeight ≠ some undo.height
  commits : ∀ older undo later, stored.history = older ++ undo :: later →
    ∀ reference : CommitRef,
      (storedBefore stored.commits (later.map StoredUndo.commits) reference).isSome = true →
      undo.commits.lookup reference = none → reference.height ≠ undo.height

/-! ### Rolling a loaded state back -/

/-- The state after the journals `later` of a reducer are rolled back. -/
structure Rewound (reducer : Reducer) (later : List Undo) (state : Reducer) : Prop where
  history : reducer.history = state.history ++ later
  heads : ∀ nameId : NameId, state.heads[nameId]? =
    OrderedMap.valueBefore reducer.heads (later.map fun undo ↦ undo.heads) nameId
  commits : ∀ reference : CommitRef, state.commits[reference]? =
    OrderedMap.valueBefore reducer.commits (later.map fun undo ↦ undo.commits) reference
  tip : state.tipHeight = later.head?.elim reducer.tipHeight Undo.previousTipHeight
  previousHash : state.previousHash = later.head?.elim reducer.previousHash Undo.previousHash

namespace Reducer

variable {reducer next state : Reducer} {later : List Undo}

/-- A rollback takes the newest journal and puts its values back. -/
theorem RollsBack.parts (h : reducer.RollsBack next) :
    ∃ undo, reducer.history = next.history ++ [undo] ∧
      next.ledger = ⟨OrderedMap.putAll reducer.commits undo.commits.toList,
        OrderedMap.putAll reducer.heads undo.heads.toList⟩ ∧
      next.tipHeight = undo.previousTipHeight ∧ next.previousHash = undo.previousHash := by
  obtain ⟨hash, delta, hrollback⟩ := h
  rw [rollbackTipDetailed] at hrollback
  split at hrollback
  · exact absurd hrollback (by simp)
  rename_i undo hlast
  split at hrollback
  · exact absurd hrollback (by simp)
  rw [Prod.mk.injEq] at hrollback
  obtain ⟨-, rfl⟩ := hrollback
  exact ⟨undo, (List.dropLast_append_getLast? undo hlast).symm, revert_ledger _ _, rfl, rfl⟩

/-- The newest journal can be rolled back when its hash is that of the tip. -/
theorem exists_rollsBack {older : List Undo} {undo : Undo}
    (hhistory : reducer.history = older ++ [undo]) (hhash : undo.hash = reducer.previousHash) :
    ∃ next, reducer.RollsBack next := by
  rcases hresult : reducer.rollbackTipDetailed undo.hash with ⟨e | delta, next⟩
  · rw [rollbackTipDetailed, hhistory, List.getLast?_concat] at hresult
    dsimp only at hresult
    rw [if_neg (by simp [hhash])] at hresult
    exact absurd (congrArg Prod.fst hresult) (by simp)
  · exact ⟨next, undo.hash, delta, hresult⟩

end Reducer

namespace Rewound

variable {reducer state next : Reducer} {later : List Undo}

theorem refl (reducer : Reducer) : Rewound reducer [] reducer where
  history := by simp
  heads nameId := rfl
  commits reference := rfl
  tip := rfl
  previousHash := rfl

/-- One more rollback. -/
theorem step (h : Rewound reducer later state) (hnext : state.RollsBack next) :
    ∃ undo, state.history = next.history ++ [undo] ∧ Rewound reducer (undo :: later) next := by
  obtain ⟨undo, hhistory, hledger, htip, hhash⟩ := hnext.parts
  refine ⟨undo, hhistory, ?_, fun nameId ↦ ?_, fun reference ↦ ?_, htip, hhash⟩
  · rw [h.history, hhistory, List.append_assoc]
    rfl
  · rw [show next.heads = _ from congrArg Ledger.heads hledger, OrderedMap.getElem?_putAll_toList,
      h.heads]
    rfl
  · rw [show next.commits = _ from congrArg Ledger.commits hledger,
      OrderedMap.getElem?_putAll_toList, h.commits]
    rfl

end Rewound

/-- Every state that rollbacks reach is the reducer without some of its newest journals. -/
theorem exists_rewound {reducer state : Reducer}
    (h : Relation.ReflTransGen Reducer.RollsBack reducer state) :
    ∃ later, Rewound reducer later state := by
  induction h with
  | refl => exact ⟨[], Rewound.refl reducer⟩
  | tail _ hstep ih =>
    obtain ⟨later, hrewound⟩ := ih
    obtain ⟨undo, -, hnext⟩ := hrewound.step hstep
    exact ⟨undo :: later, hnext⟩

/-! ### What the checks establish -/

/-- What `restore_head` establishes of a head at a tip. -/
structure Head.CheckedAt (parameters : Parameters) (tip : U32) (head : Head) : Prop where
  activation_le : parameters.activationHeight ≤ head.producer.height
  producer_le : head.producer.height ≤ tip
  expiry : head.expiryHeight.val = head.producer.height.val + parameters.leaseBlocks.val
  active : head.terminalHeight = none → tip < head.expiryHeight
  terminal : ∀ x, head.terminalHeight = some x → head.producer.height ≤ x ∧ x ≤ tip ∧
    tip.val < x.val + parameters.cooldownBlocks.val

/-- The head is terminal by the end of its lease. -/
def Head.EndsInLease (head : Head) : Prop :=
  ∀ x, head.terminalHeight = some x → x ≤ head.expiryHeight

/-- What `load_snapshot` establishes of a reducer, each record and each journal by itself. -/
structure Loaded (parameters : Parameters) (reducer : Reducer) : Prop where
  head : ∀ (nameId : NameId) (head : Head), reducer.heads[nameId]? = some head →
    ∃ tip, reducer.tipHeight = some tip ∧ head.CheckedAt parameters tip
  commit : ∀ (reference : CommitRef) (commitment : Commitment),
    reducer.commits[reference]? = some commitment →
    ∃ tip, reducer.tipHeight = some tip ∧ reference.SoundAt parameters tip
  previousTip : ∀ undo ∈ reducer.history, undo.previousTipHeight =
    if undo.height = parameters.activationHeight then none else U32.checkedSub undo.height 1
  journaledHead : ∀ undo ∈ reducer.history, ∀ (nameId : NameId) (head : Head),
    undo.heads[nameId]? = some (some head) →
    ∃ tip, undo.previousTipHeight = some tip ∧ head.CheckedAt parameters tip
  journaledCommit : ∀ undo ∈ reducer.history, ∀ (reference : CommitRef) (commitment : Commitment),
    undo.commits[reference]? = some (some commitment) →
    ∃ tip, undo.previousTipHeight = some tip ∧ reference.SoundAt parameters tip
  last : ∀ undo, reducer.history.getLast? = some undo →
    some undo.height = reducer.tipHeight ∧ undo.hash = reducer.previousHash
  linked : reducer.history.IsChain Undo.Linked

/-- What the loader does not check, of the loaded reducer. -/
structure Reducer.Covered (reducer : Reducer) : Prop where
  lease : ∀ (nameId : NameId) (head : Head), reducer.heads[nameId]? = some head → head.EndsInLease
  journaledLease : ∀ undo ∈ reducer.history, ∀ (nameId : NameId) (head : Head),
    undo.heads[nameId]? = some (some head) → head.EndsInLease
  heads : ∀ older undo later, reducer.history = older ++ undo :: later →
    ∀ (nameId : NameId) (head : Head),
      OrderedMap.valueBefore reducer.heads (later.map fun undo ↦ undo.heads) nameId = some head →
      undo.heads[nameId]? = none →
      head.producer.height ≠ undo.height ∧ head.terminalHeight ≠ some undo.height
  commits : ∀ older undo later, reducer.history = older ++ undo :: later →
    ∀ reference : CommitRef,
      (OrderedMap.valueBefore reducer.commits (later.map fun undo ↦ undo.commits)
        reference).isSome = true →
      undo.commits[reference]? = none → reference.height ≠ undo.height

omit [Primitives] in
/-- One tip lower, above activation. -/
theorem exists_previous {parameters : Parameters} {tip height : U32} {previous : Option U32}
    (hprevious : previous =
      if tip = parameters.activationHeight then none else U32.checkedSub tip 1)
    (hactivation : parameters.activationHeight ≤ height) (hlt : height < tip) :
    ∃ t, previous = some t ∧ t.val + 1 = tip.val := by
  rw [Fin.le_def] at hactivation
  rw [Fin.lt_def] at hlt
  have hne : tip ≠ parameters.activationHeight := by
    intro heq
    rw [heq] at hlt
    omega
  rw [if_neg hne] at hprevious
  rcases hsub : U32.checkedSub tip 1 with - | t
  · rw [U32.checkedSub_eq_none_iff, Fin.lt_def] at hsub
    have hone : (1 : U32).val = 1 := rfl
    omega
  · obtain ⟨-, ht⟩ := U32.checkedSub_eq_some_iff.1 hsub
    have hone : (1 : U32).val = 1 := rfl
    exact ⟨t, hprevious.trans hsub, by omega⟩

omit [Primitives] in
/-- A COMMIT of an earlier height is sound one tip lower. -/
theorem CommitRef.SoundAt.descend {parameters : Parameters} {tip : U32} {reference : CommitRef}
    (h : reference.SoundAt parameters tip) (hne : reference.height ≠ tip) {previous : Option U32}
    (hprevious : previous =
      if tip = parameters.activationHeight then none else U32.checkedSub tip 1) :
    ∃ t, previous = some t ∧ reference.SoundAt parameters t := by
  have hlt := h.height_le.lt_of_ne hne
  obtain ⟨t, ht, hval⟩ := exists_previous hprevious h.activation_le hlt
  have hage := h.age_lt
  rw [Fin.lt_def] at hlt
  refine ⟨t, ht, h.activation_le, ?_, ?_⟩
  · rw [Fin.le_def]
    omega
  · omega

/-- A head that was neither produced nor ended at the tip passes the checks one tip lower. -/
theorem Head.CheckedAt.descend {parameters : Parameters} {tip : U32} {head : Head}
    (h : head.CheckedAt parameters tip) (hproducer : head.producer.height ≠ tip)
    (hterminal : head.terminalHeight ≠ some tip) {previous : Option U32}
    (hprevious : previous =
      if tip = parameters.activationHeight then none else U32.checkedSub tip 1) :
    ∃ t, previous = some t ∧ head.CheckedAt parameters t := by
  have hlt := h.producer_le.lt_of_ne hproducer
  obtain ⟨t, ht, hval⟩ := exists_previous hprevious h.activation_le hlt
  rw [Fin.lt_def] at hlt
  refine ⟨t, ht, h.activation_le, ?_, h.expiry, fun hnone ↦ ?_, fun x hx ↦ ?_⟩
  · rw [Fin.le_def]
    omega
  · have hactive := h.active hnone
    rw [Fin.lt_def] at hactive ⊢
    omega
  · obtain ⟨hafter, hbefore, hcooldown⟩ := h.terminal x hx
    have hne : x.val ≠ tip.val := fun heq ↦ hterminal (by rw [hx, Fin.ext heq])
    rw [Fin.le_def] at hbefore
    refine ⟨hafter, ?_, by omega⟩
    rw [Fin.le_def]
    omega

theorem Head.CheckedAt.soundAt {parameters : Parameters} {tip : U32} {head : Head}
    (h : head.CheckedAt parameters tip) (hlease : head.EndsInLease) :
    head.SoundAt parameters tip where
  producer_le := h.producer_le
  expiry := h.expiry
  active := h.active
  terminal x hx := by
    obtain ⟨hafter, hbefore, hcooldown⟩ := h.terminal x hx
    exact ⟨hafter, hbefore, hlease x hx, hcooldown⟩

namespace Loaded

variable {parameters : Parameters} {reducer : Reducer} {older later : List Undo} {undo : Undo}

/-- The state above a journal has the height and the hash of its block, or no tip. -/
theorem above (h : Loaded parameters reducer)
    (hhistory : reducer.history = older ++ undo :: later) :
    (later.head?.elim reducer.tipHeight Undo.previousTipHeight = none ∨
      later.head?.elim reducer.tipHeight Undo.previousTipHeight = some undo.height) ∧
    undo.hash = later.head?.elim reducer.previousHash Undo.previousHash := by
  have hlinked := h.linked
  rw [hhistory] at hlinked
  rcases later with - | ⟨newer, later⟩
  · obtain ⟨hheight, hhash⟩ := h.last undo (by rw [hhistory, List.getLast?_concat])
    exact ⟨Or.inr hheight.symm, hhash⟩
  · have hpair : undo.Linked newer := by
      have htail := (List.isChain_append.1 hlinked).2.1
      rw [List.isChain_cons_cons] at htail
      exact htail.1
    have hprevious := h.previousTip newer (by rw [hhistory]; simp)
    have hnext := U32.checkedAdd_eq_some_iff.1 hpair.1
    refine ⟨?_, hpair.2.symm⟩
    rw [List.head?_cons, Option.elim_some, hprevious]
    split
    · exact Or.inl rfl
    · refine Or.inr (U32.checkedSub_eq_some_iff.2 ⟨?_, ?_⟩)
      · rw [Fin.le_def]
        show 1 ≤ newer.height.val
        omega
      · show undo.height.val = newer.height.val - 1
        omega

/-- The tip after a retained block, when there is one, is its height. -/
theorem tip_eq (h : Loaded parameters reducer) (hhistory : reducer.history = older ++ undo :: later)
    {tip : U32} (htip : later.head?.elim reducer.tipHeight Undo.previousTipHeight = some tip) :
    tip = undo.height := by
  rcases (h.above hhistory).1 with hnone | hsome
  · rw [hnone] at htip
    exact absurd htip (by simp)
  · rw [hsome] at htip
    exact (Option.some.inj htip).symm

/-- **Every retained journal can be rolled back**, in order. -/
theorem exists_state (h : Loaded parameters reducer) (hhistory : reducer.history = older ++ later) :
    ∃ state, Relation.ReflTransGen Reducer.RollsBack reducer state ∧
      Rewound reducer later state := by
  induction later generalizing older with
  | nil => exact ⟨reducer, .refl, Rewound.refl reducer⟩
  | cons undo later ih =>
    have hsplit : reducer.history = (older ++ [undo]) ++ later := by
      rw [hhistory, List.append_cons]
    obtain ⟨state, hreached, hrewound⟩ := ih hsplit
    have hstate : state.history = older ++ [undo] :=
      (List.append_cancel_right (hsplit.symm.trans hrewound.history)).symm
    have hhash : undo.hash = state.previousHash := by
      rw [hrewound.previousHash]
      exact (h.above hhistory).2
    obtain ⟨next, hnext⟩ := Reducer.exists_rollsBack hstate hhash
    obtain ⟨undo', hundo', hrewound'⟩ := hrewound.step hnext
    have hsame : undo' = undo := by
      rw [hstate] at hundo'
      exact (List.singleton_inj.1 (List.append_inj_right' hundo' rfl)).symm
    rw [hsame] at hrewound'
    exact ⟨next, hreached.tail hnext, hrewound'⟩

/-- **Heads, tip by tip.** A head that is put back was checked against that tip; one that stays was
made below it. -/
theorem head_level (h : Loaded parameters reducer) (hcovered : reducer.Covered)
    (hhistory : reducer.history = older ++ later) {nameId : NameId} {head : Head}
    (hhead : OrderedMap.valueBefore reducer.heads (later.map fun undo ↦ undo.heads) nameId =
      some head) :
    ∃ tip, later.head?.elim reducer.tipHeight Undo.previousTipHeight = some tip ∧
      head.CheckedAt parameters tip ∧ head.EndsInLease := by
  induction later generalizing older with
  | nil =>
    obtain ⟨tip, htip, hchecked⟩ := h.head nameId head hhead
    exact ⟨tip, htip, hchecked, hcovered.lease nameId head hhead⟩
  | cons undo later ih =>
    have hsplit : reducer.history = (older ++ [undo]) ++ later := by
      rw [hhistory, List.append_cons]
    have hmem : undo ∈ reducer.history := by
      rw [hhistory]
      simp
    rw [List.map_cons, OrderedMap.valueBefore] at hhead
    rcases hrecorded : undo.heads[nameId]? with - | recorded
    · rw [hrecorded, Option.getD_none] at hhead
      obtain ⟨tip, htip, hchecked, hlease⟩ := ih hsplit hhead
      obtain ⟨hproducer, hterminal⟩ := hcovered.heads older undo later hhistory nameId head hhead
        hrecorded
      obtain rfl := h.tip_eq hhistory htip
      obtain ⟨t, ht, hlower⟩ := hchecked.descend hproducer hterminal (h.previousTip undo hmem)
      exact ⟨t, ht, hlower, hlease⟩
    · rw [hrecorded, Option.getD_some] at hhead
      rw [hhead] at hrecorded
      obtain ⟨t, ht, hchecked⟩ := h.journaledHead undo hmem nameId head hrecorded
      exact ⟨t, ht, hchecked, hcovered.journaledLease undo hmem nameId head hrecorded⟩

/-- **COMMITs, tip by tip.** -/
theorem commit_level (h : Loaded parameters reducer) (hcovered : reducer.Covered)
    (hhistory : reducer.history = older ++ later) {reference : CommitRef} {commitment : Commitment}
    (hcommit : OrderedMap.valueBefore reducer.commits (later.map fun undo ↦ undo.commits)
      reference = some commitment) :
    ∃ tip, later.head?.elim reducer.tipHeight Undo.previousTipHeight = some tip ∧
      reference.SoundAt parameters tip := by
  induction later generalizing older with
  | nil => exact h.commit reference commitment hcommit
  | cons undo later ih =>
    have hsplit : reducer.history = (older ++ [undo]) ++ later := by
      rw [hhistory, List.append_cons]
    have hmem : undo ∈ reducer.history := by
      rw [hhistory]
      simp
    rw [List.map_cons, OrderedMap.valueBefore] at hcommit
    rcases hrecorded : undo.commits[reference]? with - | recorded
    · rw [hrecorded, Option.getD_none] at hcommit
      obtain ⟨tip, htip, hsound⟩ := ih hsplit hcommit
      have hne := hcovered.commits older undo later hhistory reference (by rw [hcommit]; rfl)
        hrecorded
      obtain rfl := h.tip_eq hhistory htip
      exact hsound.descend hne (h.previousTip undo hmem)
    · rw [hrecorded, Option.getD_some] at hcommit
      rw [hcommit] at hrecorded
      exact h.journaledCommit undo hmem reference commitment hrecorded

/-- **The rolled-back states are sound exactly when the journals cover.** -/
theorem sound_iff_covered (h : Loaded parameters reducer) :
    (∀ state, Relation.ReflTransGen Reducer.RollsBack reducer state → state.Sound parameters) ↔
      reducer.Covered := by
  constructor
  · intro hsound
    -- the state below a journal has what the journal recorded
    have hbelow : ∀ older undo later, reducer.history = older ++ undo :: later →
        ∃ state : Reducer, state.Sound parameters ∧ Rewound reducer (undo :: later) state := by
      intro older undo later hhistory
      obtain ⟨state, hreached, hrewound⟩ := h.exists_state hhistory
      exact ⟨state, hsound state hreached, hrewound⟩
    have hlt : ∀ older undo later t, reducer.history = older ++ undo :: later →
        undo.previousTipHeight = some t → t < undo.height := by
      intro older undo later t hhistory ht
      rw [h.previousTip undo (by rw [hhistory]; simp)] at ht
      split at ht
      · exact absurd ht (by simp)
      · obtain ⟨hle, hval⟩ := U32.checkedSub_eq_some_iff.1 ht
        rw [Fin.le_def] at hle
        rw [Fin.lt_def, hval]
        have hone : (1 : U32).val = 1 := rfl
        omega
    refine ⟨fun nameId head hhead x hx ↦ ?_, fun undo hundo nameId head hhead x hx ↦ ?_,
      fun older undo later hhistory nameId head hhead hnone ↦ ?_,
      fun older undo later hhistory reference hcommit hnone ↦ ?_⟩
    · obtain ⟨tip, -, hat⟩ := (hsound reducer .refl).head nameId head hhead
      exact (hat.terminal x hx).2.2.1
    · obtain ⟨older, later, hhistory⟩ := List.append_of_mem hundo
      obtain ⟨state, hstate, hrewound⟩ := hbelow older undo later hhistory
      obtain ⟨tip, -, hat⟩ := hstate.head nameId head (by
        rw [hrewound.heads, List.map_cons, OrderedMap.valueBefore, hhead]
        rfl)
      exact (hat.terminal x hx).2.2.1
    · obtain ⟨state, hstate, hrewound⟩ := hbelow older undo later hhistory
      obtain ⟨tip, htip, hat⟩ := hstate.head nameId head (by
        rw [hrewound.heads, List.map_cons, OrderedMap.valueBefore, hnone]
        exact hhead)
      have hbefore := hlt older undo later tip hhistory (hrewound.tip.symm.trans htip)
      refine ⟨(hat.producer_le.trans_lt hbefore).ne, fun hterminal ↦ ?_⟩
      exact absurd (hat.terminal undo.height hterminal).2.1 (not_le.2 hbefore)
    · obtain ⟨state, hstate, hrewound⟩ := hbelow older undo later hhistory
      obtain ⟨commitment, hcommitment⟩ := Option.isSome_iff_exists.1 hcommit
      obtain ⟨tip, htip, hat⟩ := hstate.commit reference commitment (by
        rw [hrewound.commits, List.map_cons, OrderedMap.valueBefore, hnone]
        exact hcommitment)
      have hbefore := hlt older undo later tip hhistory (hrewound.tip.symm.trans htip)
      exact (hat.height_le.trans_lt hbefore).ne
  · intro hcovered state hreached
    obtain ⟨later, hrewound⟩ := exists_rewound hreached
    refine ⟨fun nameId head hhead ↦ ?_, fun reference commitment hcommit ↦ ?_⟩
    · rw [hrewound.heads] at hhead
      obtain ⟨tip, htip, hchecked, hlease⟩ := h.head_level hcovered hrewound.history hhead
      exact ⟨tip, hrewound.tip.trans htip, hchecked.soundAt hlease⟩
    · rw [hrewound.commits] at hcommit
      obtain ⟨tip, htip, hsound⟩ := h.commit_level hcovered hrewound.history hcommit
      exact ⟨tip, hrewound.tip.trans htip, hsound⟩

end Loaded

/-! ### Reading the loader -/

/-- The heights of a head that the journals are about. -/
def Head.heights (head : Head) : U32 × U32 × Option U32 :=
  (head.producer.height, head.expiryHeight, head.terminalHeight)

omit [Primitives] in
@[inherit_doc Head.heights]
def StoredHead.heights (head : StoredHead) : U32 × U32 × Option U32 :=
  (head.producer.height, head.expiryHeight, head.terminalHeight)

section Restore

variable {parameters : Parameters} {network : Network}

omit [Primitives] in
theorem soundAt_of_validateCommit {tipHeight : Option U32} {reference : CommitRef}
    (h : validateCommit parameters tipHeight reference = .ok ()) :
    ∃ tip, tipHeight = some tip ∧ reference.SoundAt parameters tip := by
  rw [validateCommit.eq_def] at h
  split at h
  · exact absurd h (by simp)
  rename_i tip
  split at h
  · exact absurd h (by simp)
  rename_i hrange
  simp only [not_or, not_lt, ge_iff_le, gt_iff_lt, not_le] at hrange
  refine ⟨tip, rfl, hrange.1, hrange.2.1, ?_⟩
  have hage := hrange.2.2
  rwa [Fin.lt_def, Fin.sub_val_of_le hrange.2.1] at hage

/-- **What `restore_head` checks.** -/
theorem checkedAt_of_restoreHead {tipHeight : Option U32} {stored : StoredHead} {head : Head}
    (h : restoreHead parameters network tipHeight stored = .ok head) :
    (∃ tip, tipHeight = some tip ∧ head.CheckedAt parameters tip) ∧
      head.heights = stored.heights := by
  rw [restoreHead.eq_def] at h
  split at h
  · exact absurd h (by simp)
  rename_i tip
  split at h
  rotate_left
  · exact absurd h (by simp)
  rename_i name ua commitment futureNf epoch expiry _ _ _ _ hepoch hexpiry
  split at h
  · exact absurd h (by simp)
  rename_i hbounds
  dsimp only at h
  split at h
  · exact absurd h (by simp)
  rename_i hlive
  rw [Except.ok.injEq] at h
  subst h
  simp only [not_or, not_and, not_not, gt_iff_lt, not_lt, ge_iff_le, not_le, ne_eq,
    Bool.not_eq_true] at hbounds hlive
  obtain ⟨hproducer, -, hlease, hterminal⟩ := hbounds
  refine ⟨⟨tip, rfl, (Parameters.epoch_eq_ok_iff.1 hepoch).1, hproducer, ?_, hlive.1,
    fun x hx ↦ ?_⟩, rfl⟩
  · rw [show stored.expiryHeight = expiry from hlease]
    exact Parameters.expiry_eq_ok_iff.1 hexpiry
  · have hx' : stored.terminalHeight = some x := hx
    rw [hx', Option.any_some, decide_eq_false_iff_not, not_or, not_lt, not_lt] at hterminal
    have hclaimable := hlive.2
    rw [Head.isClaimable, Head.terminalAt, show Option.or _ _ = some x by rw [hx']; rfl,
      Option.any_some, decide_eq_false_iff_not] at hclaimable
    exact ⟨hterminal.1, hterminal.2, by omega⟩

theorem of_restoreNamedHead {tipHeight : Option U32} {key : Bytes32} {stored : StoredHead}
    {nameId : NameId} {head : Head}
    (h : restoreNamedHead parameters network tipHeight (key, stored) = .ok (nameId, head)) :
    key = nameId.bytes ∧ head.heights = stored.heights ∧
      ∃ tip, tipHeight = some tip ∧ head.CheckedAt parameters tip := by
  rw [restoreNamedHead] at h
  split at h
  · exact absurd h (by simp)
  rename_i nameId' hkey
  split at h
  · exact absurd h (by simp)
  rename_i head' hhead
  split at h
  · exact absurd h (by simp)
  rw [Except.ok.injEq, Prod.mk.injEq] at h
  obtain ⟨rfl, rfl⟩ := h
  obtain ⟨hchecked, hheights⟩ := checkedAt_of_restoreHead hhead
  exact ⟨(NameId.fromBytes_eq_ok hkey).symm, hheights, hchecked⟩

omit [Primitives] in
theorem of_restoreCommit {tipHeight : Option U32} {key : CommitRef} {bytes : Bytes32}
    {reference : CommitRef} {commitment : Commitment}
    (h : restoreCommit parameters tipHeight (key, bytes) = .ok (reference, commitment)) :
    key = reference ∧ ∃ tip, tipHeight = some tip ∧ reference.SoundAt parameters tip := by
  rw [restoreCommit] at h
  split at h
  · exact absurd h (by simp)
  split at h
  · exact absurd h (by simp)
  rename_i hvalid
  rw [Except.ok.injEq, Prod.mk.injEq] at h
  obtain ⟨rfl, -⟩ := h
  exact ⟨rfl, soundAt_of_validateCommit hvalid⟩

theorem of_restoreHeadUndo {previousTip : Option U32} {key : Bytes32} {stored : Option StoredHead}
    {nameId : NameId} {recorded : Option Head}
    (h : restoreHeadUndo parameters network previousTip (key, stored) = .ok (nameId, recorded)) :
    key = nameId.bytes ∧ recorded.map Head.heights = stored.map StoredHead.heights ∧
      ∀ head, recorded = some head →
        ∃ tip, previousTip = some tip ∧ head.CheckedAt parameters tip := by
  rw [restoreHeadUndo] at h
  split at h
  · exact absurd h (by simp)
  rename_i nameId' hkey
  rcases stored with - | stored
  · rw [Except.ok.injEq, Prod.mk.injEq] at h
    obtain ⟨rfl, rfl⟩ := h
    exact ⟨(NameId.fromBytes_eq_ok hkey).symm, rfl, fun head hhead ↦ absurd hhead (by simp)⟩
  · dsimp only at h
    split at h
    · exact absurd h (by simp)
    rename_i head hhead
    split at h
    · exact absurd h (by simp)
    rw [Except.ok.injEq, Prod.mk.injEq] at h
    obtain ⟨rfl, rfl⟩ := h
    obtain ⟨hchecked, hheights⟩ := checkedAt_of_restoreHead hhead
    refine ⟨(NameId.fromBytes_eq_ok hkey).symm, congrArg some hheights, fun head' hhead' ↦ ?_⟩
    rw [← Option.some.inj hhead']
    exact hchecked

omit [Primitives] in
theorem of_restoreCommitUndo {height : U32} {previousTip : Option U32} {key : CommitRef}
    {stored : Option Bytes32} {reference : CommitRef} {recorded : Option Commitment}
    (h : restoreCommitUndo parameters height previousTip (key, stored) =
      .ok (reference, recorded)) :
    key = reference ∧ recorded.map (fun _ ↦ ()) = stored.map (fun _ ↦ ()) ∧
      (recorded.isSome = true → ∃ tip, previousTip = some tip ∧
        reference.SoundAt parameters tip) := by
  rw [restoreCommitUndo.eq_def] at h
  rcases stored with - | bytes
  · dsimp only at h
    split at h
    · exact absurd h (by simp)
    rw [Except.ok.injEq, Prod.mk.injEq] at h
    obtain ⟨rfl, rfl⟩ := h
    exact ⟨rfl, rfl, fun hsome ↦ absurd hsome (by simp)⟩
  · dsimp only at h
    split at h
    · exact absurd h (by simp)
    split at h
    · exact absurd h (by simp)
    rename_i hrange
    rw [not_or, not_not] at hrange
    rw [Except.ok.injEq, Prod.mk.injEq] at h
    obtain ⟨rfl, rfl⟩ := h
    exact ⟨rfl, rfl, fun _ ↦ soundAt_of_validateCommit hrange.2⟩

/-- **What `restore_undo` checks**, and what of the stored journal it keeps. -/
structure RestoredUndo (parameters : Parameters) (stored : StoredUndo) (undo : Undo) : Prop where
  height : undo.height = stored.height
  previousTip : undo.previousTipHeight =
    if undo.height = parameters.activationHeight then none else U32.checkedSub undo.height 1
  head : ∀ (nameId : NameId) (head : Head), undo.heads[nameId]? = some (some head) →
    ∃ tip, undo.previousTipHeight = some tip ∧ head.CheckedAt parameters tip
  commit : ∀ (reference : CommitRef) (commitment : Commitment),
    undo.commits[reference]? = some (some commitment) →
    ∃ tip, undo.previousTipHeight = some tip ∧ reference.SoundAt parameters tip
  heads : ∀ nameId : NameId, undo.heads[nameId]?.map (Option.map Head.heights) =
    (stored.heads.lookup nameId.bytes).map (Option.map StoredHead.heights)
  commits : ∀ reference : CommitRef, undo.commits[reference]?.map (Option.map fun _ ↦ ()) =
    (stored.commits.lookup reference).map (Option.map fun _ ↦ ())

theorem restoredUndo {tipHeight : Option U32} {stored : StoredUndo} {undo : Undo}
    (h : restoreUndo parameters network tipHeight stored = .ok undo) :
    RestoredUndo parameters stored undo := by
  rw [restoreUndo] at h
  generalize hexpected : (if stored.height = parameters.activationHeight then none
    else U32.checkedSub stored.height 1) = expected at h
  split at h
  · exact absurd h (by simp)
  rename_i hposition
  split at h
  · exact absurd h (by simp)
  rename_i commits hcommits
  split at h
  · exact absurd h (by simp)
  rename_i heads hheads
  rw [Except.ok.injEq] at h
  subst h
  rw [not_or, not_or, not_not, not_not] at hposition
  refine ⟨rfl, hposition.2.2.trans hexpected.symm, fun nameId head hhead ↦ ?_,
    fun reference commitment hcommit ↦ ?_,
    OrderedMap.map_getElem?_loadAll hheads NameId.eq_of_bytes_eq fun hparse ↦ ?_,
    OrderedMap.map_getElem?_loadAll hcommits
      (fun {k k' : CommitRef} (heq : id k = id k') ↦ heq) fun hparse ↦ ?_⟩
  · rcases (OrderedMap.getElem?_loadAll hheads).1 hhead with hempty | ⟨⟨key, w⟩, -, hentry⟩
    · exact absurd hempty (by simp)
    · exact (of_restoreHeadUndo hentry).2.2 head rfl
  · rcases (OrderedMap.getElem?_loadAll hcommits).1 hcommit with hempty | ⟨⟨key, w⟩, -, hentry⟩
    · exact absurd hempty (by simp)
    · exact (of_restoreCommitUndo hentry).2.2 rfl
  · obtain ⟨hkey, hheights, -⟩ := of_restoreHeadUndo hparse
    exact ⟨hkey, hheights⟩
  · obtain ⟨hkey, hsame, -⟩ := of_restoreCommitUndo hparse
    exact ⟨hkey, hsame⟩

/-- The journals that load, one by one. -/
theorem restored_history {tipHeight : Option U32} {stored : List StoredUndo} {history : List Undo}
    (h : stored.mapM (restoreUndo parameters network tipHeight) = .ok history) :
    List.Forall₂ (RestoredUndo parameters) stored history := by
  induction stored generalizing history with
  | nil =>
    rw [List.mapM_nil] at h
    rw [← Except.ok.inj h]
    exact .nil
  | cons undo rest ih =>
    rw [List.mapM_cons] at h
    rcases hfirst : restoreUndo parameters network tipHeight undo with e | first
    · rw [hfirst] at h
      exact absurd h (by simp [bind, Except.bind])
    rcases hrest : rest.mapM (restoreUndo parameters network tipHeight) with e | last
    · rw [hfirst, hrest] at h
      exact absurd h (by simp [bind, Except.bind])
    rw [hfirst, hrest] at h
    rw [← Except.ok.inj h]
    exact .cons (restoredUndo hfirst) (ih hrest)

/-- The checks on the journals as a whole. -/
theorem of_validateHistory {tipHeight : Option U32} {previousHash : Bytes32} {history : List Undo}
    (h : validateHistory tipHeight previousHash history = .ok ()) :
    (∀ undo, history.getLast? = some undo →
      some undo.height = tipHeight ∧ undo.hash = previousHash) ∧
      history.IsChain Undo.Linked := by
  have hpairs : ∀ {l : List Undo}, (l.zip l.tail).any (fun pair ↦
      U32.checkedAdd pair.1.height 1 ≠ some pair.2.height ∨
        pair.2.previousHash ≠ pair.1.hash) = false → l.IsChain Undo.Linked := by
    intro l
    induction l with
    | nil => exact fun _ ↦ .nil
    | cons first l ih =>
      intro hl
      rcases l with - | ⟨second, l⟩
      · exact .singleton first
      · rw [List.tail_cons, List.zip_cons_cons, List.any_cons, Bool.or_eq_false_iff] at hl
        have hfirst : first.Linked second := by simpa [Undo.Linked] using hl.1
        exact .cons_cons hfirst (ih hl.2)
  rw [validateHistory.eq_def] at h
  split at h
  · rename_i hnone
    rw [List.getLast?_eq_none_iff] at hnone
    subst hnone
    exact ⟨fun undo hundo ↦ absurd hundo (by simp), .nil⟩
  · rename_i last hlast
    split at h
    · exact absurd h (by simp)
    rename_i hposition
    split at h
    · exact absurd h (by simp)
    rename_i hlinks
    rw [not_or, not_not, not_not] at hposition
    refine ⟨fun undo hundo ↦ ?_, hpairs (Bool.eq_false_iff.2 hlinks)⟩
    rw [hlast, Option.some.injEq] at hundo
    rw [← hundo]
    exact hposition

end Restore

/-- **A loaded reducer beside its stored form.** -/
structure Restored (parameters : Parameters) (stored : StoredReducer)
    (reducer : Reducer) : Prop where
  loaded : Loaded parameters reducer
  history : List.Forall₂ (RestoredUndo parameters) stored.history reducer.history
  heads : ∀ nameId : NameId, reducer.heads[nameId]?.map Head.heights =
    (stored.heads.lookup nameId.bytes).map StoredHead.heights
  commits : ∀ reference : CommitRef, reducer.commits[reference]?.map (fun _ ↦ ()) =
    (stored.commits.lookup reference).map (fun _ ↦ ())

theorem restored {parameters : Parameters} {network : Network} {verifier : ProofVerifier}
    {valid : parameters.Valid} {stored : StoredReducer} {reducer : Reducer}
    (h : Reducer.restore parameters network verifier valid stored = .ok reducer) :
    Restored parameters stored reducer := by
  obtain ⟨-, -, -, -, -, commits, heads, history, hcommits, hheads, hhistory, hlinked, -, rfl⟩ :=
    Reducer.restore_eq_ok_iff.1 h
  have hundos := restored_history hhistory
  obtain ⟨hlast, hchain⟩ := of_validateHistory hlinked
  have hundo : ∀ undo ∈ history, ∃ s, RestoredUndo parameters s undo := by
    intro undo hmem
    obtain ⟨older, later, rfl⟩ := List.append_of_mem hmem
    obtain ⟨-, s, -, -, hs, -⟩ := exists_split_of_forall₂ hundos
    exact ⟨s, hs⟩
  rw [Records.rebuildDerivedIndexes_eq]
  refine ⟨⟨fun nameId head hhead ↦ ?_, fun reference commitment hcommit ↦ ?_, ?_, ?_, ?_, hlast,
    hchain⟩, hundos,
    OrderedMap.map_getElem?_loadAll hheads NameId.eq_of_bytes_eq fun hparse ↦ ?_,
    OrderedMap.map_getElem?_loadAll hcommits
      (fun {k k' : CommitRef} (heq : id k = id k') ↦ heq) fun hparse ↦ ?_⟩
  · rcases (OrderedMap.getElem?_loadAll hheads).1 hhead with hempty | ⟨⟨key, w⟩, -, hentry⟩
    · exact absurd hempty (by simp)
    · exact (of_restoreNamedHead hentry).2.2
  · rcases (OrderedMap.getElem?_loadAll hcommits).1 hcommit with hempty | ⟨⟨key, w⟩, -, hentry⟩
    · exact absurd hempty (by simp)
    · exact (of_restoreCommit hentry).2
  · intro undo hmem
    obtain ⟨s, hs⟩ := hundo undo hmem
    exact hs.previousTip
  · intro undo hmem
    obtain ⟨s, hs⟩ := hundo undo hmem
    exact hs.head
  · intro undo hmem
    obtain ⟨s, hs⟩ := hundo undo hmem
    exact hs.commit
  · obtain ⟨hkey, hheights, -⟩ := of_restoreNamedHead hparse
    exact ⟨hkey, hheights⟩
  · exact ⟨(of_restoreCommit hparse).1, rfl⟩

omit [Primitives] in
/-- Two optional values that look the same satisfy the same property of their look. -/
theorem forall_some_iff {A B T : Type} {f : A → T} {g : B → T} {a : Option A} {b : Option B}
    (h : a.map f = b.map g) {P : T → Prop} :
    (∀ x, a = some x → P (f x)) ↔ ∀ y, b = some y → P (g y) := by
  rcases a with - | x
  · rw [Option.map_none, eq_comm, Option.map_eq_none_iff] at h
    simp [h]
  · rw [Option.map_some, eq_comm, Option.map_eq_some_iff] at h
    obtain ⟨y, rfl, hy⟩ := h
    simp [hy]

omit [Primitives] in
/-- The value before some journals looks as the stored value before the stored journals. -/
theorem map_valueBefore {K V A W T S U : Type} [Ord K] [TransOrd K] [BEq A] {f : V → T} {g : W → T}
    {m : OrderedMap K V} {current : List (A × W)} {encode : K → A} {k : K}
    (hcurrent : m[k]?.map f = (current.lookup (encode k)).map g) {R : S → U → Prop}
    {journal : U → JournalOf K V} {stored : S → List (A × Option W)}
    (hjournal : ∀ {s u}, R s u → (journal u)[k]?.map (Option.map f) =
      ((stored s).lookup (encode k)).map (Option.map g))
    {later' : List S} {later : List U} (hlater : List.Forall₂ R later' later) :
    (OrderedMap.valueBefore m (later.map journal) k).map f =
      (storedBefore current (later'.map stored) (encode k)).map g := by
  induction hlater with
  | nil => exact hcurrent
  | @cons s u _ _ hfirst _ ih =>
    have hrecorded := hjournal hfirst
    rw [List.map_cons, List.map_cons, OrderedMap.valueBefore, storedBefore]
    rcases hu : (journal u)[k]? with - | recorded
    · rw [hu, Option.map_none, eq_comm, Option.map_eq_none_iff] at hrecorded
      rw [hrecorded, Option.getD_none, Option.getD_none]
      exact ih
    · rw [hu, Option.map_some, eq_comm, Option.map_eq_some_iff] at hrecorded
      obtain ⟨value, hvalue, hsame⟩ := hrecorded
      rw [hvalue, Option.getD_some, Option.getD_some, hsame]

namespace Restored

variable {parameters : Parameters} {stored : StoredReducer} {reducer : Reducer}

/-- The journals that are split off correspond. -/
theorem split (h : Restored parameters stored reducer) {older : List Undo} {undo : Undo}
    {later : List Undo} (hhistory : reducer.history = older ++ undo :: later) :
    ∃ older' undo' later', stored.history = older' ++ undo' :: later' ∧
      RestoredUndo parameters undo' undo ∧
      List.Forall₂ (RestoredUndo parameters) later' later := by
  have hundos := h.history
  rw [hhistory] at hundos
  exact exists_split_of_forall₂ hundos

theorem split' (h : Restored parameters stored reducer) {older : List StoredUndo}
    {undo : StoredUndo} {later : List StoredUndo}
    (hhistory : stored.history = older ++ undo :: later) :
    ∃ older' undo' later', reducer.history = older' ++ undo' :: later' ∧
      RestoredUndo parameters undo undo' ∧
      List.Forall₂ (RestoredUndo parameters) later later' := by
  have hundos := h.history
  rw [hhistory] at hundos
  obtain ⟨older', undo', later', heq, hundo, hlater⟩ :=
    exists_split_of_forall₂ (List.Forall₂.flip (R := flip (RestoredUndo parameters)) hundos)
  exact ⟨older', undo', later', heq, hundo, hlater.flip⟩

theorem heads_covered_iff (h : Restored parameters stored reducer) {undo : Undo}
    {storedUndo : StoredUndo} (hundo : RestoredUndo parameters storedUndo undo) {later : List Undo}
    {storedLater : List StoredUndo}
    (hlater : List.Forall₂ (RestoredUndo parameters) storedLater later) (nameId : NameId) :
    (∀ head : Head,
      OrderedMap.valueBefore reducer.heads (later.map fun undo ↦ undo.heads) nameId = some head →
      undo.heads[nameId]? = none →
      head.producer.height ≠ undo.height ∧ head.terminalHeight ≠ some undo.height) ↔
    ∀ head : StoredHead,
      storedBefore stored.heads (storedLater.map StoredUndo.heads) nameId.bytes = some head →
      storedUndo.heads.lookup nameId.bytes = none →
      head.producer.height ≠ storedUndo.height ∧
        head.terminalHeight ≠ some storedUndo.height := by
  have hnone : undo.heads[nameId]? = none ↔ storedUndo.heads.lookup nameId.bytes = none := by
    rw [← Option.map_eq_none_iff, hundo.heads, Option.map_eq_none_iff]
  have hsame := map_valueBefore (h.heads nameId) (fun hs ↦ hs.heads nameId) hlater
  rw [hnone, hundo.height]
  exact forall_some_iff hsame (P := fun heights ↦
    storedUndo.heads.lookup nameId.bytes = none →
      heights.1 ≠ storedUndo.height ∧ heights.2.2 ≠ some storedUndo.height)

theorem commits_covered_iff (h : Restored parameters stored reducer) {undo : Undo}
    {storedUndo : StoredUndo} (hundo : RestoredUndo parameters storedUndo undo) {later : List Undo}
    {storedLater : List StoredUndo}
    (hlater : List.Forall₂ (RestoredUndo parameters) storedLater later) (reference : CommitRef) :
    ((OrderedMap.valueBefore reducer.commits (later.map fun undo ↦ undo.commits)
        reference).isSome = true →
      undo.commits[reference]? = none → reference.height ≠ undo.height) ↔
    ((storedBefore stored.commits (storedLater.map StoredUndo.commits) reference).isSome = true →
      storedUndo.commits.lookup reference = none → reference.height ≠ storedUndo.height) := by
  have hnone : undo.commits[reference]? = none ↔ storedUndo.commits.lookup reference = none := by
    rw [← Option.map_eq_none_iff, hundo.commits, Option.map_eq_none_iff]
  have hsame : Option.map (fun _ ↦ ()) (OrderedMap.valueBefore reducer.commits
      (later.map fun undo ↦ undo.commits) reference) = Option.map (fun _ ↦ ())
        (storedBefore stored.commits (storedLater.map StoredUndo.commits) (id reference)) :=
    map_valueBefore (h.commits reference) (fun hs ↦ hs.commits reference) hlater
  rw [hnone, hundo.height, ← Option.isSome_map, hsame, Option.isSome_map]
  rfl

/-- **The two readings of what the loader does not check.** -/
theorem covered_iff (h : Restored parameters stored reducer) : reducer.Covered ↔
    stored.Covered := by
  have hlease : ∀ nameId : NameId, (∀ head : Head, reducer.heads[nameId]? = some head →
      head.EndsInLease) ↔ ∀ head : StoredHead,
        stored.heads.lookup nameId.bytes = some head → head.EndsInLease := fun nameId ↦
    forall_some_iff (h.heads nameId) (P := fun heights ↦
      ∀ x, heights.2.2 = some x → x ≤ heights.2.1)
  have hjournaled : ∀ {storedUndo : StoredUndo} {undo : Undo},
      RestoredUndo parameters storedUndo undo → ∀ nameId : NameId,
        ((∀ head : Head, undo.heads[nameId]? = some (some head) → head.EndsInLease) ↔
          ∀ head : StoredHead, storedUndo.heads.lookup nameId.bytes = some (some head) →
            head.EndsInLease) := by
    intro storedUndo undo hundo nameId
    have hsame : undo.heads[nameId]?.join.map Head.heights =
        (storedUndo.heads.lookup nameId.bytes).join.map StoredHead.heights := by
      rw [← Option.join_map_eq_map_join, hundo.heads, Option.join_map_eq_map_join]
    have hiff := forall_some_iff hsame (P := fun heights ↦
      ∀ x, heights.2.2 = some x → x ≤ heights.2.1)
    simp only [Option.join_eq_some_iff] at hiff
    exact hiff
  constructor
  · intro hcovered
    refine ⟨fun nameId ↦ (hlease nameId).1 (hcovered.lease nameId), fun undo hundo nameId ↦ ?_,
      fun older undo later hhistory nameId ↦ ?_, fun older undo later hhistory reference ↦ ?_⟩
    · obtain ⟨older, later, hhistory⟩ := List.append_of_mem hundo
      obtain ⟨older', undo', later', heq, hundo', -⟩ := h.split' hhistory
      exact (hjournaled hundo' nameId).1 (hcovered.journaledLease undo' (by rw [heq]; simp) nameId)
    · obtain ⟨older', undo', later', heq, hundo', hlater⟩ := h.split' hhistory
      exact (h.heads_covered_iff hundo' hlater nameId).1
        (hcovered.heads older' undo' later' heq nameId)
    · obtain ⟨older', undo', later', heq, hundo', hlater⟩ := h.split' hhistory
      exact (h.commits_covered_iff hundo' hlater reference).1
        (hcovered.commits older' undo' later' heq reference)
  · intro hcovered
    refine ⟨fun nameId ↦ (hlease nameId).2 (hcovered.lease nameId), fun undo hundo nameId ↦ ?_,
      fun older undo later hhistory nameId ↦ ?_, fun older undo later hhistory reference ↦ ?_⟩
    · obtain ⟨older, later, hhistory⟩ := List.append_of_mem hundo
      obtain ⟨older', undo', later', heq, hundo', -⟩ := h.split hhistory
      exact (hjournaled hundo' nameId).2 (hcovered.journaledLease undo' (by rw [heq]; simp) nameId)
    · obtain ⟨older', undo', later', heq, hundo', hlater⟩ := h.split hhistory
      exact (h.heads_covered_iff hundo' hlater nameId).2
        (hcovered.heads older' undo' later' heq nameId)
    · obtain ⟨older', undo', later', heq, hundo', hlater⟩ := h.split hhistory
      exact (h.commits_covered_iff hundo' hlater reference).2
        (hcovered.commits older' undo' later' heq reference)

end Restored

/-- **When a loaded snapshot is sound.** The loaded state and every state it can be rolled back to
are sound exactly when the stored heads end in their lease and the stored journals cover the records
of their heights. -/
theorem loaded_states_sound_iff {B : Type} {serde : Serde B StoredReducer} {parameters : Parameters}
    {network : Network} {verifier : ProofVerifier} {bytes : B} {stored : StoredReducer}
    {reducer : Reducer} (hstored : serde.fromSlice bytes = some stored)
    (hload : Reducer.loadSnapshot serde parameters network verifier bytes = .ok reducer) :
    (∀ state, Relation.ReflTransGen Reducer.RollsBack reducer state → state.Sound parameters) ↔
      stored.Covered := by
  obtain ⟨valid, stored', hstored', hrestore⟩ := Reducer.loadSnapshot_eq_ok hload
  rw [hstored, Option.some.injEq] at hstored'
  subst hstored'
  have hrestored := restored hrestore
  exact hrestored.loaded.sound_iff_covered.trans hrestored.covered_iff

end SnapshotChecks

namespace Sample

/-- Snapshots whose bytes are the stored structure itself. -/
def storedSerde : Serde StoredReducer StoredReducer where
  toVec := some
  fromSlice := some

/-- A snapshot at height six with one head: the lease of `alice` ended at height five, and the head
says when it became terminal. -/
def expiredSnapshot (terminal : U32) : StoredReducer where
  formatVersion := reducerSnapshotFormatVersion
  deploymentId := parameters.deploymentId
  rulesetFingerprint := rulesetFingerprint
  rollbackRange := none
  parameters := parameters
  nextHeight := some 7
  tipHeight := some 6
  previousHash := parent
  commits := []
  heads := (alice.id.toOption.map fun nameId ↦ (nameId.bytes,
    { name := alice.asStr
      ua := ua.value
      producer := ⟨1, 0, Vector.replicate 32 11, 0⟩
      commitment := (field 6).bytes
      futureNf := (field 7).bytes
      producerEpoch := 0
      expiryHeight := 5
      terminalHeight := some terminal })).toList
  history := []

/-- The loader accepts a head that was terminated after its lease had ended. -/
theorem not_loaded_states_sound : ¬ ∀ (bytes : StoredReducer) (reducer : Reducer),
    Reducer.loadSnapshot storedSerde parameters .regtest verifier bytes = .ok reducer →
    ∀ state, Relation.ReflTransGen Reducer.RollsBack reducer state → state.Sound parameters := by
  intro hall
  have hload : ((Reducer.loadSnapshot storedSerde parameters .regtest verifier
      (expiredSnapshot 6)).toOption.map fun reducer ↦ reducer.heads.toList.map fun e ↦
        (e.2.expiryHeight, e.2.terminalHeight)) = some [(5, some 6)] := by decide +kernel
  rcases hresult : Reducer.loadSnapshot storedSerde parameters .regtest verifier
      (expiredSnapshot 6) with e | reducer
  · rw [hresult] at hload
    exact absurd hload (by simp [Except.toOption])
  rw [hresult, Except.toOption, Option.map_some, Option.some.injEq, List.map_eq_singleton_iff]
    at hload
  obtain ⟨⟨nameId, head⟩, hlist, hheights⟩ := hload
  rw [Prod.mk.injEq] at hheights
  have hhead : reducer.heads[nameId]? = some head := by
    rw [OrderedMap.getElem?_eq_some_iff_mem_toList, hlist]
    exact List.mem_singleton_self _
  obtain ⟨tip, -, hsound⟩ := (hall _ reducer hresult reducer .refl).head nameId head hhead
  have hle := (hsound.terminal 6 hheights.2).2.2.1
  rw [hheights.1] at hle
  exact absurd hle (by decide)

/-- A snapshot at height five with the journal of its block, in which the lease of `alice` ended:
before it the head was not terminal. -/
def journaledSnapshot : StoredReducer :=
  { expiredSnapshot 5 with
    rollbackRange := some ⟨5, 5⟩
    nextHeight := some 6
    tipHeight := some 5
    history := [
      { height := 5
        hash := parent
        previousHash := Vector.replicate 32 9
        previousNextHeight := some 5
        previousTipHeight := some 4
        commits := []
        heads := (expiredSnapshot 5).heads.map fun entry ↦
          (entry.1, some { entry.2 with terminalHeight := none }) }] }

/-- With the height at which the lease ended, the head is sound, before that block as well. -/
theorem loaded_states_sound_iff_journaled : journaledSnapshot.Covered ∧ ∃ reducer previous,
    Reducer.loadSnapshot storedSerde parameters .regtest verifier journaledSnapshot =
      .ok reducer ∧
    reducer.RollsBack previous ∧
    reducer.heads.toList.map (fun entry ↦ entry.2.terminalHeight) = [some 5] ∧
    previous.heads.toList.map (fun entry ↦ entry.2.terminalHeight) = [none] ∧
    ∀ state, Relation.ReflTransGen Reducer.RollsBack reducer state → state.Sound parameters := by
  have hstored : ∀ (k : Bytes32) (head : StoredHead),
      journaledSnapshot.heads.lookup k = some head →
      (k, head) ∈ journaledSnapshot.heads ∧ head.expiryHeight = 5 ∧
        head.terminalHeight = some 5 := by
    intro k head hhead
    obtain ⟨before, after, hheads, -⟩ := List.lookup_eq_some_iff.1 hhead
    have hmem : (k, head) ∈ journaledSnapshot.heads := by
      rw [hheads]
      simp
    refine ⟨hmem, ?_⟩
    rw [journaledSnapshot, expiredSnapshot, Option.mem_toList, Option.map_eq_some_iff] at hmem
    obtain ⟨_, -, hentry⟩ := hmem
    rw [← (Prod.mk.inj hentry).2]
    exact ⟨rfl, rfl⟩
  have hlast : ∀ {older later : List StoredUndo} {undo : StoredUndo},
      journaledSnapshot.history = older ++ undo :: later →
      journaledSnapshot.history.head? = some undo ∧ later = [] := by
    intro older later undo hhistory
    obtain ⟨rfl, hcons⟩ | ⟨-, hcons⟩ := List.append_eq_singleton_iff.1 hhistory.symm
    · obtain ⟨rfl, rfl⟩ := List.cons.inj hcons
      exact ⟨rfl, rfl⟩
    · cases hcons
  have hcovered : journaledSnapshot.Covered := by
    refine ⟨fun nameId head hhead x hx ↦ ?_, fun undo hundo nameId head hhead x hx ↦ ?_,
      fun older undo later hhistory nameId head hbefore hnone ↦ ?_,
      fun older undo later hhistory reference hbefore ↦ ?_⟩
    · obtain ⟨-, hexpiry, hterminal⟩ := hstored _ _ hhead
      rw [hterminal, Option.some.injEq] at hx
      rw [hexpiry, hx]
    · rw [List.mem_singleton.1 hundo, List.lookup_eq_some_iff] at hhead
      obtain ⟨before, after, hheads, -⟩ := hhead
      have hmem := hheads ▸ List.mem_append_right before List.mem_cons_self
      obtain ⟨entry, -, hentry⟩ := List.mem_map.1 hmem
      rw [← Option.some.inj (Prod.mk.inj hentry).2] at hx
      cases hx
    · obtain ⟨hundo, rfl⟩ := hlast hhistory
      obtain ⟨hmem, -⟩ := hstored _ _ hbefore
      rw [← Option.some.inj hundo] at hnone
      exact absurd rfl (bne_iff_ne.1 (List.lookup_eq_none_iff.1 hnone _
        (List.mem_map_of_mem hmem)))
    · obtain ⟨-, rfl⟩ := hlast hhistory
      cases hbefore
  have hevaluated : (Reducer.loadSnapshot storedSerde parameters .regtest verifier
      journaledSnapshot).toOption.bind (fun reducer ↦
        (reducer.rollbackTipDetailed parent).1.toOption.map fun _ ↦
          (reducer.heads.toList.map (fun entry ↦ entry.2.terminalHeight),
            (reducer.rollbackTipDetailed parent).2.heads.toList.map
              fun entry ↦ entry.2.terminalHeight)) = some ([some 5], [none]) := by
    decide +kernel
  simp only [Option.bind_eq_some_iff, Option.map_eq_some_iff, Prod.mk.injEq,
    Except.toOption_eq_some_iff] at hevaluated
  obtain ⟨reducer, hload, delta, hdelta, hheads, hprevious⟩ := hevaluated
  exact ⟨hcovered, reducer, (reducer.rollbackTipDetailed parent).2, hload,
    ⟨parent, delta, Prod.ext hdelta rfl⟩, hheads, hprevious,
    (loaded_states_sound_iff rfl hload).2 hcovered⟩

end Sample

end CoppiceNames
