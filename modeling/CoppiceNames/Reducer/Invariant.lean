import CoppiceNames.Reducer.Scan

/-!
# The invariant of the ledger

What holds of every record at a height, stated for one head (`HeadInv`) and one COMMIT
(`CommitInv`), and kept by every phase of a block. Inside a block the invariant also bounds the
transaction indices used so far at the current height; with the strictly increasing indices of an
admitted block this keeps the producers of heads distinct.
-/

open Std hiding not_le not_lt

namespace CoppiceNames

section Invariant

variable [Primitives]

/-! ### Admission -/

/-- The first transaction index that is still free after `previous`. -/
def nextIndex (previous : Option U32) : ℕ :=
  previous.elim 0 fun index ↦ index.val + 1

theorem checkTransactions_cons {previous : Option U32} {transaction : Transaction}
    {rest : List Transaction} (h : checkTransactions previous (transaction :: rest) = .ok ()) :
    nextIndex previous ≤ transaction.txIndex.val ∧ canonicalActions transaction.actions = true ∧
      checkTransactions (some transaction.txIndex) rest = .ok () := by
  rw [checkTransactions] at h
  split at h
  · cases h
  rename_i hindex
  split at h
  · cases h
  rename_i hactions
  refine ⟨?_, by simpa using hactions, h⟩
  rcases previous with - | index
  · exact Nat.zero_le _
  · simp only [Option.any_some, decide_eq_true_eq, not_le] at hindex
    exact hindex

/-- After a transaction that passes, the checks go on with the rest. -/
theorem checkTransactions_cons_of_ok {previous : Option U32} {transaction : Transaction}
    (h : checkTransactions previous [transaction] = .ok ()) (rest : List Transaction) :
    checkTransactions previous (transaction :: rest) =
      checkTransactions (some transaction.txIndex) rest := by
  rw [checkTransactions] at h ⊢
  split at h
  · cases h
  rename_i hindex
  split at h
  · cases h
  rename_i hactions
  rw [if_neg hindex, if_neg hactions]

/-- A block that passes does so up to each of its transactions. -/
theorem checkTransactions_left {previous : Option U32} {before after : List Transaction}
    (h : checkTransactions previous (before ++ after) = .ok ()) :
    checkTransactions previous before = .ok () := by
  induction before generalizing previous with
  | nil => rfl
  | cons transaction before ih =>
    rw [List.cons_append, checkTransactions] at h
    rw [checkTransactions]
    split at h
    · cases h
    rename_i hindex
    split at h
    · cases h
    rename_i hactions
    rw [if_neg hindex, if_neg hactions]
    exact ih h

/-- The evidence a block may carry for a reference. -/
structure Evidential (parameters : Parameters) (block : Block) (reference : CommitRef) : Prop where
  referenced : reference ∈ block.revealReferences
  activation_le : parameters.activationHeight ≤ reference.height
  before : reference.height < block.height
  age_lt : block.height.val - reference.height.val < parameters.commitTtlBlocks.val

/-- The range check of one piece of evidence. -/
theorem evidential_iff {parameters : Parameters} {block : Block} {reference : CommitRef} :
    Evidential parameters block reference ↔
      ¬ (reference ∉ block.revealReferences ∨ reference.height < parameters.activationHeight ∨
        reference.height ≥ block.height ∨
        block.height - reference.height ≥ parameters.commitTtlBlocks) := by
  simp only [not_or, not_not, not_lt, ge_iff_le, not_le]
  constructor
  · rintro ⟨h₁, h₂, h₃, h₄⟩
    refine ⟨h₁, h₂, h₃, ?_⟩
    rw [Fin.lt_def, Fin.sub_val_of_le h₃.le]
    exact h₄
  · rintro ⟨h₁, h₂, h₃, h₄⟩
    rw [Fin.lt_def, Fin.sub_val_of_le h₃.le] at h₄
    exact ⟨h₁, h₂, h₃, h₄⟩

/-- Evidence is not refused for the indices of actions. -/
theorem supply_ne_nonCanonicalActionIndex {parameters : Parameters}
    {commits supplied : OrderedMap CommitRef Commitment} {block : Block}
    {evidence : List ReferencedCommit} :
    supply parameters commits block supplied evidence ≠ .error .nonCanonicalActionIndex := by
  induction evidence generalizing supplied with
  | nil => simp [supply]
  | cons piece rest ih =>
    rw [supply]
    split
    · simp
    split
    · simp
    · exact ih

/-- Supplied evidence is in range and comes from the list. -/
theorem supply_eq_ok {parameters : Parameters}
    {commits supplied supplied' : OrderedMap CommitRef Commitment} {block : Block}
    {evidence : List ReferencedCommit}
    (h : supply parameters commits block supplied evidence = .ok supplied') {reference : CommitRef}
    {commitment : Commitment} (hmem : supplied'[reference]? = some commitment) :
    supplied[reference]? = some commitment ∨ (⟨reference, commitment⟩ ∈ evidence ∧
      Evidential parameters block reference ∧
      ∀ prior, commits[reference]? = some prior → prior = commitment) := by
  induction evidence generalizing supplied with
  | nil =>
    cases h
    exact Or.inl hmem
  | cons piece rest ih =>
    rw [supply] at h
    split at h
    · cases h
    rename_i hrange
    split at h
    · cases h
    rename_i hconflict
    rcases ih h with hprevious | ⟨hrest, hevidential⟩
    · rcases OrderedMap.getElem?_insert_eq_some_iff.1 hprevious with ⟨rfl, rfl⟩ | ⟨-, hold⟩
      · refine Or.inr ⟨List.mem_cons_self, evidential_iff.2 hrange, fun prior hprior ↦ ?_⟩
        simp only [not_or, hprior, Option.any_some, ne_eq, decide_not, Bool.not_eq_true',
          decide_eq_false_iff_not, not_not] at hconflict
        exact hconflict.2
      · exact Or.inl hold
    · exact Or.inr ⟨List.mem_cons_of_mem piece hrest, hevidential⟩

/-! ### The invariant of one record -/

/-- What holds of the head of a name at a height, when the transactions of that height up to
`bound` are done. -/
structure HeadInv (parameters : Parameters) (height : U32) (bound : ℕ) (nameId : NameId)
    (head : Head) : Prop where
  name : head.name.id = .ok nameId
  window : parameters.acceptsOperation nameId head.producer.height = true
  producer_le : head.producer.height ≤ height
  producer_lt : head.producer.height = height → head.producer.txIndex.val < bound
  epoch : parameters.epoch head.producer.height = .ok head.producerEpoch
  expiry : parameters.expiry head.producer.height = .ok head.expiryHeight
  active : head.terminalHeight = none → height < head.expiryHeight
  terminal : ∀ x, head.terminalHeight = some x → head.producer.height ≤ x ∧ x ≤ height ∧
    x ≤ head.expiryHeight ∧ height.val < x.val + parameters.cooldownBlocks.val

/-- What holds of a pending COMMIT at a height. -/
structure CommitInv (parameters : Parameters) (height : U32) (bound : ℕ) (reference : CommitRef) :
    Prop where
  activation_le : parameters.activationHeight ≤ reference.height
  height_le : reference.height ≤ height
  index_lt : reference.height = height → reference.txIndex.val < bound
  age_lt : height.val - reference.height.val < parameters.commitTtlBlocks.val

/-- The invariant of all records. -/
structure Ledger.Inv (ledger : Ledger) (parameters : Parameters) (height : U32) (bound : ℕ) :
    Prop where
  activation_le : parameters.activationHeight ≤ height
  head : ∀ (nameId : NameId) (head : Head), ledger.heads[nameId]? = some head →
    HeadInv parameters height bound nameId head
  commit : ∀ reference ∈ ledger.commits, CommitInv parameters height bound reference
  producer_inj : ∀ (a b : NameId) (head head' : Head), ledger.heads[a]? = some head →
    ledger.heads[b]? = some head' → head.producer.height = head'.producer.height →
    head.producer.txIndex = head'.producer.txIndex → a = b

namespace HeadInv

variable {parameters : Parameters} {height : U32} {bound : ℕ} {nameId : NameId} {head : Head}

/-- A head that is kept is not claimable. -/
theorem isClaimable_eq (h : HeadInv parameters height bound nameId head) :
    head.isClaimable height parameters = false := by
  rw [Head.isClaimable, Head.terminalAt]
  rcases hterm : head.terminalHeight with - | x
  · rw [Option.none_or, if_neg (not_le.2 (h.active hterm))]
    rfl
  · have hx := (h.terminal x hterm).2.2.2
    rw [Option.some_or, Option.any_some, decide_eq_false_iff_not]
    omega

theorem lifecycle_eq (h : HeadInv parameters height bound nameId head) :
    head.lifecycle height parameters =
      if head.terminalHeight = none then .active else .cooldown := by
  rw [Head.lifecycle, h.isClaimable_eq, Head.terminalAt]
  rcases hterm : head.terminalHeight with - | x
  · rw [Option.none_or, if_neg (not_le.2 (h.active hterm))]
    rfl
  · rfl

/-- The next bound. -/
theorem mono (h : HeadInv parameters height bound nameId head) {bound' : ℕ}
    (hle : bound ≤ bound') : HeadInv parameters height bound' nameId head :=
  { h with producer_lt := fun heq ↦ Nat.lt_of_lt_of_le (h.producer_lt heq) hle }

/-- Block start: a head that is kept satisfies the invariant of the next height. -/
theorem start (h : HeadInv parameters height bound nameId head) {next : U32}
    (hnext : next.val = height.val + 1)
    (hkept : (head.expire next).released parameters next = false) :
    HeadInv parameters next 0 nameId (head.expire next) := by
  have hbefore : head.producer.height < next := by
    have hle := h.producer_le
    grind
  by_cases hexpired : head.terminalHeight = none ∧ head.expiryHeight ≤ next
  · -- the lease ended exactly at the next height
    have hactive := h.active hexpired.1
    have hexpiry : head.expiryHeight = next := by
      have hle := hexpired.2
      grind
    rw [Head.expire, if_pos hexpired] at hkept ⊢
    refine ⟨h.name, h.window, hbefore.le, fun heq ↦ absurd heq hbefore.ne, h.epoch, h.expiry,
      fun hnone ↦ absurd hnone (by simp), fun x hx ↦ ?_⟩
    simp only [Option.some.injEq] at hx
    simp only [Head.released, Option.any_some, decide_eq_false_iff_not] at hkept
    grind
  · rw [Head.expire, if_neg hexpired] at hkept ⊢
    refine ⟨h.name, h.window, hbefore.le, fun heq ↦ absurd heq hbefore.ne, h.epoch, h.expiry,
      fun hnone ↦ ?_, fun x hx ↦ ?_⟩
    · by_contra hle
      exact hexpired ⟨hnone, not_lt.1 hle⟩
    · obtain ⟨h₁, h₂, h₃, h₄⟩ := h.terminal x hx
      simp only [Head.released, hx, Option.any_some, decide_eq_false_iff_not] at hkept
      grind

/-- A spend terminates an active head at the current height. -/
theorem spend (hvalid : parameters.Valid) (h : HeadInv parameters height bound nameId head)
    (hactive : head.terminalHeight = none) :
    HeadInv parameters height bound nameId { head with terminalHeight := some height } := by
  have hlt := h.active hactive
  have hpos := hvalid.cooldown_pos
  refine ⟨h.name, h.window, h.producer_le, h.producer_lt, h.epoch, h.expiry,
    fun hnone ↦ absurd hnone (by simp), fun x hx ↦ ?_⟩
  cases hx
  exact ⟨h.producer_le, le_rfl, hlt.le, by omega⟩

/-- A head just installed. -/
theorem install {transaction : Transaction} {name : Name} {ua : CanonicalUa} {actionIndex : U32}
    {actionCommitment futureNf : FieldElement} {epoch expiry : U32} (hvalid : parameters.Valid)
    (hname : name.id = .ok nameId) (hwindow : parameters.acceptsOperation nameId height = true)
    (hepoch : parameters.epoch height = .ok epoch)
    (hexpiry : parameters.expiry height = .ok expiry) :
    HeadInv parameters height (transaction.txIndex.val + 1) nameId
      (transaction.successor height name ua actionIndex actionCommitment futureNf
        epoch expiry) := by
  refine ⟨hname, hwindow, le_rfl, fun _ ↦ Nat.lt_succ_self _, hepoch, hexpiry, fun _ ↦ ?_,
    fun x hx ↦ by cases hx⟩
  have hlease := hvalid.epoch_lt
  have hval := Parameters.expiry_eq_ok_iff.1 hexpiry
  have hpos := hvalid.epoch_pos
  rw [Fin.lt_def] at hlease ⊢
  rw [Transaction.successor, hval]
  omega

end HeadInv

/-! ### The phases keep the invariant -/

namespace Ledger

variable {ledger : Ledger} {parameters : Parameters} {height : U32} {bound : ℕ}

theorem getElem?_startBlock (ledger : Ledger) (parameters : Parameters) (height : U32)
    (supplied : OrderedMap CommitRef Commitment) (nameId : NameId) :
    (ledger.startBlock parameters height supplied).heads[nameId]? =
      (ledger.heads[nameId]?.map fun head ↦ head.expire height).filter fun head ↦
        !head.released parameters height := by
  rw [startBlock, addEvidence_heads, prune_heads, getElem?_compact, getElem?_markExpired]

theorem startBlock_commits (ledger : Ledger) (parameters : Parameters) (height : U32)
    (supplied : OrderedMap CommitRef Commitment) (reference : CommitRef) :
    (ledger.startBlock parameters height supplied).commits[reference]? =
      (supplied[reference]?).or (ledger.commits[reference]?.filter fun _ ↦
        height.val - reference.height.val < parameters.commitTtlBlocks.val) := by
  rw [startBlock, getElem?_addEvidence, getElem?_prune, compact_commits, markExpired_commits]

/-- A head after the block-start phases comes from one before them. -/
theorem of_getElem?_startBlock {supplied : OrderedMap CommitRef Commitment} {nameId : NameId}
    {head : Head}
    (h : (ledger.startBlock parameters height supplied).heads[nameId]? = some head) :
    ∃ previous, ledger.heads[nameId]? = some previous ∧ head = previous.expire height ∧
      head.released parameters height = false := by
  rw [getElem?_startBlock, Option.filter_eq_some_iff, Option.map_eq_some_iff] at h
  obtain ⟨⟨previous, hprevious, rfl⟩, hkept⟩ := h
  exact ⟨previous, hprevious, rfl, by simpa using hkept⟩

/-- **Block start.** -/
theorem Inv.startBlock (h : ledger.Inv parameters height bound) {block : Block}
    (hnext : block.height.val = height.val + 1) {supplied : OrderedMap CommitRef Commitment}
    (hsupplied : ∀ reference ∈ supplied, Evidential parameters block reference) :
    (ledger.startBlock parameters block.height supplied).Inv parameters block.height 0 := by
  have hactivation : parameters.activationHeight ≤ block.height := by
    have hle := h.activation_le
    grind
  refine ⟨hactivation, fun nameId head hhead ↦ ?_, fun reference hmem ↦ ?_,
    fun a b head head' ha hb hheight hindex ↦ ?_⟩
  · obtain ⟨previous, hprevious, rfl, hkept⟩ := of_getElem?_startBlock hhead
    exact (h.head nameId previous hprevious).start hnext hkept
  · rw [ExtTreeMap.mem_iff_isSome_getElem?, Option.isSome_iff_exists] at hmem
    obtain ⟨commitment, hcommitment⟩ := hmem
    rw [startBlock_commits, Option.or_eq_some_iff] at hcommitment
    rcases hcommitment with hsome | ⟨-, hsome⟩
    · obtain ⟨-, h₁, h₂, h₃⟩ := hsupplied reference (OrderedMap.mem_of_getElem?_eq_some hsome)
      exact ⟨h₁, h₂.le, fun heq ↦ absurd heq h₂.ne, h₃⟩
    · rw [Option.filter_eq_some_iff, decide_eq_true_eq] at hsome
      obtain ⟨h₁, h₂, -, -⟩ := h.commit reference (OrderedMap.mem_of_getElem?_eq_some hsome.1)
      have hlt : reference.height < block.height := by grind
      exact ⟨h₁, hlt.le, fun heq ↦ absurd heq hlt.ne, hsome.2⟩
  · obtain ⟨previous, hprevious, rfl, -⟩ := of_getElem?_startBlock ha
    obtain ⟨previous', hprevious', rfl, -⟩ := of_getElem?_startBlock hb
    rw [Head.expire_producer, Head.expire_producer] at hheight hindex
    exact h.producer_inj a b previous previous' hprevious hprevious' hheight hindex

/-- The first block starts from no records. -/
theorem Inv.startFirst {block : Block} (hfirst : block.height = parameters.activationHeight)
    {supplied : OrderedMap CommitRef Commitment}
    (hsupplied : ∀ reference ∈ supplied, Evidential parameters block reference) :
    (empty.startBlock parameters block.height supplied).Inv parameters block.height 0 := by
  have hnone : ∀ (nameId : NameId) (head : Head),
      (empty.startBlock parameters block.height supplied).heads[nameId]? ≠ some head := by
    intro nameId head hhead
    obtain ⟨previous, hprevious, -⟩ := of_getElem?_startBlock hhead
    simp [empty] at hprevious
  refine ⟨hfirst.ge, fun nameId head hhead ↦ absurd hhead (hnone nameId head),
    fun reference hmem ↦ ?_, fun a _ head _ ha ↦ absurd ha (hnone a head)⟩
  rw [ExtTreeMap.mem_iff_isSome_getElem?, Option.isSome_iff_exists] at hmem
  obtain ⟨commitment, hcommitment⟩ := hmem
  rw [startBlock_commits, Option.or_eq_some_iff] at hcommitment
  rcases hcommitment with hsome | ⟨-, hsome⟩
  · obtain ⟨-, h₁, h₂, h₃⟩ := hsupplied reference (OrderedMap.mem_of_getElem?_eq_some hsome)
    exact ⟨h₁, h₂.le, fun heq ↦ absurd heq h₂.ne, h₃⟩
  · simp [empty] at hsome

/-- Installing a head under a position that is still free. -/
theorem Inv.insertHead (h : ledger.Inv parameters height bound) {transaction : Transaction}
    (hbound : bound ≤ transaction.txIndex.val) {nameId : NameId} {head : Head}
    (hhead : HeadInv parameters height (transaction.txIndex.val + 1) nameId head)
    (hheight : head.producer.height = height)
    (hindex : head.producer.txIndex = transaction.txIndex) :
    Inv { ledger with heads := ledger.heads.insert nameId head } parameters height
      (transaction.txIndex.val + 1) := by
  have hfresh : ∀ {a : NameId} {current : Head}, ledger.heads[a]? = some current →
      current.producer.height = height → current.producer.txIndex ≠ transaction.txIndex := by
    intro a current ha heq hsame
    have hlt := (h.head a current ha).producer_lt heq
    rw [hsame] at hlt
    omega
  refine ⟨h.activation_le, fun a current ha ↦ ?_, fun reference hmem ↦ ?_,
    fun a b current current' ha hb hsame hsameIndex ↦ ?_⟩
  · rcases OrderedMap.getElem?_insert_eq_some_iff.1 ha with ⟨rfl, rfl⟩ | ⟨-, hold⟩
    · exact hhead
    · exact (h.head a current hold).mono (by omega)
  · obtain ⟨h₁, h₂, h₃, h₄⟩ := h.commit reference hmem
    exact ⟨h₁, h₂, fun heq ↦ by have := h₃ heq; omega, h₄⟩
  · rcases OrderedMap.getElem?_insert_eq_some_iff.1 ha with ⟨rfl, rfl⟩ | ⟨-, hold⟩
    · rcases OrderedMap.getElem?_insert_eq_some_iff.1 hb with ⟨rfl, -⟩ | ⟨-, hold'⟩
      · rfl
      · exact absurd (hsameIndex.symm.trans hindex) (hfresh hold' (hsame.symm.trans hheight))
    · rcases OrderedMap.getElem?_insert_eq_some_iff.1 hb with ⟨rfl, rfl⟩ | ⟨-, hold'⟩
      · exact absurd (hsameIndex.trans hindex) (hfresh hold (hsame.trans hheight))
      · exact h.producer_inj a b current current' hold hold' hsame hsameIndex

theorem Inv.mono (h : ledger.Inv parameters height bound) {bound' : ℕ} (hle : bound ≤ bound') :
    ledger.Inv parameters height bound' :=
  { h with
    head := fun nameId head hhead ↦ (h.head nameId head hhead).mono hle
    commit := fun reference hmem ↦
      { h.commit reference hmem with
        index_lt := fun heq ↦ Nat.lt_of_lt_of_le ((h.commit reference hmem).index_lt heq) hle } }

variable {rules : Rules} {transaction : Transaction}

/-- **Operations.** -/
theorem Inv.applyOperation (h : ledger.Inv rules.parameters height bound)
    (hbound : bound ≤ transaction.txIndex.val) :
    (ledger.applyOperation rules height transaction).2.Inv rules.parameters height
      (transaction.txIndex.val + 1) := by
  have hmono : ledger.Inv rules.parameters height (transaction.txIndex.val + 1) :=
    h.mono (by omega)
  rw [Ledger.applyOperation]
  rcases transaction.operation with - | (commitment | op | op)
  · exact hmono
  · refine { hmono with commit := fun reference hmem ↦ ?_ }
    rw [ExtTreeMap.mem_insert, LawfulEqCmp.compare_eq_iff_eq] at hmem
    rcases hmem with rfl | hmem
    · refine ⟨h.activation_le, le_rfl, fun _ ↦ Nat.lt_succ_self _, ?_⟩
      have hpos := rules.valid.ttl_pos
      simpa using hpos
    · exact hmono.commit reference hmem
  · dsimp only
    rcases hresult : ledger.revealed rules height transaction op with clause | ⟨nameId, head⟩
    · exact hmono
    · obtain ⟨hname, -, hwindow, -, -, action, epoch, expiry, -, hepoch, hexpiry, rfl⟩ :=
        revealed_eq_ok hresult
      exact h.insertHead hbound (.install rules.valid hname hwindow hepoch hexpiry) rfl rfl
  · dsimp only
    rcases hresult : ledger.refreshed rules height transaction op with clause | ⟨nameId, head⟩
    · exact hmono
    · obtain ⟨hname, predecessor, -, -, -, hwindow, action, epoch, expiry, -, -, -, hepoch, -,
        hexpiry, rfl⟩ := refreshed_eq_ok hresult
      exact h.insertHead hbound (.install rules.valid hname hwindow hepoch hexpiry) rfl rfl

theorem afterSpend_producer (before : Ledger) (nameId : NameId) (head : Head) :
    (before.afterSpend height transaction nameId head).producer = head.producer := by
  rw [afterSpend]
  split <;> rfl

/-- **Spends.** -/
theorem Inv.terminate (h : ledger.Inv rules.parameters height bound) (before : Ledger) :
    (ledger.terminate before height transaction).Inv rules.parameters height bound := by
  refine ⟨h.activation_le, fun nameId head hhead ↦ ?_, h.commit,
    fun a b head head' ha hb hheight hindex ↦ ?_⟩
  · rw [getElem?_terminate, Option.map_eq_some_iff] at hhead
    obtain ⟨previous, hprevious, rfl⟩ := hhead
    have hinv := h.head nameId previous hprevious
    rw [afterSpend]
    split
    · rename_i hspent
      rw [spent, Bool.and_eq_true, Option.isNone_iff_eq_none] at hspent
      exact hinv.spend rules.valid hspent.1
    · exact hinv
  · rw [getElem?_terminate, Option.map_eq_some_iff] at ha hb
    obtain ⟨previous, hprevious, rfl⟩ := ha
    obtain ⟨previous', hprevious', rfl⟩ := hb
    rw [afterSpend_producer, afterSpend_producer] at hheight hindex
    exact h.producer_inj a b previous previous' hprevious hprevious' hheight hindex

/-- **Transactions.** -/
theorem Inv.applyTransaction (h : ledger.Inv rules.parameters height bound)
    (hbound : bound ≤ transaction.txIndex.val) :
    (ledger.applyTransaction rules height transaction).2.2.Inv rules.parameters height
      (transaction.txIndex.val + 1) :=
  (h.applyOperation hbound).terminate ledger

/-- **All transactions of an admitted block.** -/
theorem Inv.applyTransactions {previous : Option U32} {transactions : List Transaction}
    (hcheck : checkTransactions previous transactions = .ok ())
    (h : ledger.Inv rules.parameters height (nextIndex previous)) :
    (ledger.applyTransactions rules height transactions).2.2.Inv rules.parameters height
      4294967296 := by
  induction transactions generalizing ledger previous with
  | nil =>
    refine h.mono ?_
    rcases previous with - | index
    · exact Nat.zero_le _
    · exact index.isLt
  | cons transaction rest ih =>
    obtain ⟨hbound, -, hrest⟩ := checkTransactions_cons hcheck
    exact ih hrest (h.applyTransaction hbound)

end Ledger

end Invariant

end CoppiceNames
