import CoppiceNames.Reducer.Reachable

/-!
# The effect of a transaction on existing heads

What one transaction does to the head of every name. The operation can install one head, at the
transaction's own position (`applyOperation_cases`). The spend pass then terminates the active heads
that were current before the transaction and whose future nullifier an action spends; a head just
installed is not among them, because no earlier head has the transaction's position as its producer
(`spent_installed`).
-/

open Std hiding not_le not_lt

namespace CoppiceNames

section Effects

variable [Primitives]

namespace Ledger

variable {ledger : Ledger} {rules : Rules} {height : U32} {transaction : Transaction} {bound : ℕ}
  {nameId : NameId} {head : Head}

/-- **What the operation of a transaction can do.** -/
theorem applyOperation_cases (ledger : Ledger) (rules : Rules) (height : U32)
    (transaction : Transaction) :
    (∃ op nameId head, transaction.operation = some (.reveal op) ∧
      ledger.revealed rules height transaction op = .ok (nameId, head) ∧
      ledger.applyOperation rules height transaction = (⟨some .reveal, .revealAccept⟩,
        { ledger with heads := ledger.heads.insert nameId head })) ∨
    (∃ op nameId head, transaction.operation = some (.refresh op) ∧
      ledger.refreshed rules height transaction op = .ok (nameId, head) ∧
      ledger.applyOperation rules height transaction = (⟨some .refresh, .refreshAccept⟩,
        { ledger with heads := ledger.heads.insert nameId head })) ∨
    (∃ commitment, transaction.operation = some (.commit commitment) ∧
      ledger.applyOperation rules height transaction = (⟨some .commit, .commitAccept⟩,
        { ledger with
          commits := ledger.commits.insert ⟨height, transaction.txIndex, transaction.txid⟩
            commitment })) ∨
    ∃ clause, ledger.applyOperation rules height transaction = (⟨none, clause⟩, ledger) := by
  rw [applyOperation]
  rcases hop : transaction.operation with - | (commitment | op | op)
  · exact Or.inr (Or.inr (Or.inr ⟨_, rfl⟩))
  · exact Or.inr (Or.inr (Or.inl ⟨commitment, rfl, rfl⟩))
  · rcases hresult : ledger.revealed rules height transaction op with clause | ⟨nameId, head⟩
    · exact Or.inr (Or.inr (Or.inr ⟨clause, by simp [hresult]⟩))
    · exact Or.inl ⟨op, nameId, head, rfl, hresult, by simp [hresult]⟩
  · rcases hresult : ledger.refreshed rules height transaction op with clause | ⟨nameId, head⟩
    · exact Or.inr (Or.inr (Or.inr ⟨clause, by simp [hresult]⟩))
    · exact Or.inr (Or.inl ⟨op, nameId, head, rfl, hresult, by simp [hresult]⟩)

/-- A head at the transaction's own position was not current before it. -/
theorem Inv.spent_installed (h : ledger.Inv rules.parameters height bound)
    (hbound : bound ≤ transaction.txIndex.val) (hheight : head.producer.height = height)
    (hindex : head.producer.txIndex = transaction.txIndex) :
    ledger.spent transaction nameId head = false := by
  rw [Bool.eq_false_iff]
  intro hspent
  simp only [spent, Bool.and_eq_true, Option.any_eq_true, decide_eq_true_eq] at hspent
  obtain ⟨-, previous, hprevious, -, hproducer⟩ := hspent
  have hlt := (h.head nameId previous hprevious).producer_lt (by rw [hproducer, hheight])
  rw [hproducer, hindex] at hlt
  omega

/-- A head that the operation leaves alone is terminated exactly when it is active and spent. -/
theorem afterSpend_current (hhead : ledger.heads[nameId]? = some head) :
    ledger.afterSpend height transaction nameId head =
      if head.terminalHeight = none ∧ ∃ action ∈ transaction.actions,
          action.nullifier = head.futureNf then
        { head with terminalHeight := some height } else head := by
  have hspent : ledger.spent transaction nameId head = true ↔ head.terminalHeight = none ∧
      ∃ action ∈ transaction.actions, action.nullifier = head.futureNf := by
    simp [spent, hhead, Transaction.spends]
  rw [afterSpend]
  simp only [hspent]

end Ledger

/-- The transaction carries a REFRESH of the name, and it was accepted. -/
def Refreshes (transaction : Transaction) (decision : OperationDecision) (nameId : NameId)
    (op : Refresh) : Prop :=
  transaction.operation = some (.refresh op) ∧ decision.accepted = some .refresh ∧
    op.name.id = .ok nameId

/-- The successor head that an accepted REFRESH installs. -/
def IsSuccessor (rules : Rules) (height : U32) (transaction : Transaction) (op : Refresh)
    (head : Head) : Prop :=
  ∃ action epoch expiry, transaction.actions[op.actionIndex.val]? = some action ∧
    rules.parameters.epoch height = .ok epoch ∧ rules.parameters.expiry height = .ok expiry ∧
    head = transaction.successor height op.name op.ua op.actionIndex action.commitment
      op.successorFutureNf epoch expiry

/-- **The effect of a transaction on the head of a name.** -/
structure HeadEffect (rules : Rules) (height : U32) (transaction : Transaction)
    (decision : OperationDecision) (nameId : NameId) (head : Head) (after : Option Head) :
    Prop where
  /-- A terminal head stays as it is. -/
  terminal : head.terminalHeight ≠ none → after = some head
  /-- An accepted REFRESH replaces the head it names by its successor. -/
  refreshed : head.terminalHeight = none → ∀ op, Refreshes transaction decision nameId op →
    op.predecessor = head.producer ∧
      ∃ successor, IsSuccessor rules height transaction op successor ∧ after = some successor
  /-- A spent head that is not refreshed becomes terminal. -/
  spent : head.terminalHeight = none → (¬ ∃ op, Refreshes transaction decision nameId op) →
    (∃ action ∈ transaction.actions, action.nullifier = head.futureNf) →
    after = some { head with terminalHeight := some height }
  /-- Any other head stays as it is. -/
  unchanged : head.terminalHeight = none → (¬ ∃ op, Refreshes transaction decision nameId op) →
    (¬ ∃ action ∈ transaction.actions, action.nullifier = head.futureNf) → after = some head

namespace Ledger

variable {ledger : Ledger} {rules : Rules} {height : U32} {transaction : Transaction} {bound : ℕ}
  {nameId : NameId} {head : Head}

/-- A head the operation leaves alone, when no REFRESH of it was accepted. -/
theorem headEffect_of_unchanged {decision : OperationDecision}
    (hhead : ledger.heads[nameId]? = some head)
    (hnot : ¬ ∃ op, Refreshes transaction decision nameId op) :
    HeadEffect rules height transaction decision nameId head
      (some (ledger.afterSpend height transaction nameId head)) := by
  rw [afterSpend_current hhead]
  refine ⟨fun hterm ↦ ?_, fun _ op hop ↦ absurd ⟨op, hop⟩ hnot, fun hterm _ hspent ↦ ?_,
    fun hterm _ hunspent ↦ ?_⟩
  · rw [if_neg fun h ↦ hterm h.1]
  · rw [if_pos ⟨hterm, hspent⟩]
  · rw [if_neg fun h ↦ hunspent h.2]

/-- **One transaction, every head.** -/
theorem Inv.headEffect (h : ledger.Inv rules.parameters height bound)
    (hbound : bound ≤ transaction.txIndex.val) (hhead : ledger.heads[nameId]? = some head) :
    HeadEffect rules height transaction (ledger.applyTransaction rules height transaction).1 nameId
      head (ledger.applyTransaction rules height transaction).2.2.heads[nameId]? := by
  rw [Ledger.applyTransaction]
  dsimp only
  rw [getElem?_terminate]
  rcases applyOperation_cases ledger rules height transaction with
    ⟨op, id, installed, hop, hresult, heq⟩ | ⟨op, id, installed, hop, hresult, heq⟩ |
      ⟨commitment, hop, heq⟩ | ⟨clause, heq⟩
  · -- an accepted REVEAL is for a name without a head
    rw [heq]
    have hfree := (revealed_eq_ok hresult).2.1
    have hne : id ≠ nameId := by
      rintro rfl
      rw [hhead] at hfree
      exact absurd hfree (by simp)
    rw [OrderedMap.getElem?_insert_of_ne hne, hhead]
    refine headEffect_of_unchanged hhead ?_
    rintro ⟨op', hop', -⟩
    rw [hop] at hop'
    cases hop'
  · rw [heq]
    obtain ⟨hname, predecessor, hpredecessor, hactive, hproducer, -, action, epoch, expiry, haction,
      -, -, hepoch, -, hexpiry, rfl⟩ := refreshed_eq_ok hresult
    by_cases hid : id = nameId
    · subst hid
      rw [hhead, Option.some.injEq] at hpredecessor
      subst hpredecessor
      have hterm : head.terminalHeight = none := by
        have hlifecycle := (h.head id head hhead).lifecycle_eq
        rw [hactive] at hlifecycle
        by_contra hne
        rw [if_neg hne] at hlifecycle
        cases hlifecycle
      have hunspent : ledger.spent transaction id (transaction.successor height op.name op.ua
          op.actionIndex action.commitment op.successorFutureNf epoch expiry) = false :=
        h.spent_installed hbound rfl rfl
      rw [ExtTreeMap.getElem?_insert_self, Option.map_some, afterSpend, if_neg (by simp [hunspent])]
      have hrefreshes : Refreshes transaction ⟨some .refresh, .refreshAccept⟩ id op :=
        ⟨hop, rfl, hname⟩
      refine ⟨fun hne ↦ absurd hterm hne, fun _ op' hop' ↦ ?_, fun _ hnot ↦
        absurd ⟨op, hrefreshes⟩ hnot,
        fun _ hnot ↦ absurd ⟨op, hrefreshes⟩ hnot⟩
      have hsame : op' = op := by
        have hop₁ := hop'.1
        rw [hop] at hop₁
        cases hop₁
        rfl
      subst hsame
      exact ⟨hproducer.symm, _, ⟨action, epoch, expiry, haction, hepoch, hexpiry, rfl⟩, rfl⟩
    · rw [OrderedMap.getElem?_insert_of_ne hid, hhead]
      refine headEffect_of_unchanged hhead ?_
      rintro ⟨op', hop', -, hname'⟩
      rw [hop] at hop'
      cases hop'
      rw [hname, Except.ok.injEq] at hname'
      exact hid hname'
  · rw [heq, hhead]
    refine headEffect_of_unchanged hhead ?_
    rintro ⟨op', hop', -⟩
    rw [hop] at hop'
    cases hop'
  · rw [heq, hhead]
    refine headEffect_of_unchanged hhead ?_
    rintro ⟨op', -, haccepted, -⟩
    cases haccepted

/-- A head that a transaction installs is not terminated by it. -/
theorem Inv.installed_active (h : ledger.Inv rules.parameters height bound)
    (hbound : bound ≤ transaction.txIndex.val)
    (hhead : (ledger.applyTransaction rules height transaction).2.2.heads[nameId]? = some head)
    (hheight : head.producer.height = height)
    (hindex : head.producer.txIndex = transaction.txIndex) : head.terminalHeight = none := by
  rw [Ledger.applyTransaction] at hhead
  dsimp only at hhead
  rw [getElem?_terminate, Option.map_eq_some_iff] at hhead
  obtain ⟨current, hcurrent, rfl⟩ := hhead
  rw [afterSpend_producer] at hheight hindex
  rw [afterSpend, if_neg (by simp [h.spent_installed hbound hheight hindex])]
  -- it cannot be a head from before the transaction
  have hnew : ledger.heads[nameId]? ≠ some current := by
    intro hold
    have hlt := (h.head nameId current hold).producer_lt hheight
    rw [hindex] at hlt
    omega
  rcases applyOperation_cases ledger rules height transaction with
    ⟨op, id, installed, -, hresult, heq⟩ | ⟨op, id, installed, -, hresult, heq⟩ |
      ⟨commitment, -, heq⟩ | ⟨clause, heq⟩
  · rw [heq, OrderedMap.getElem?_insert_eq_some_iff] at hcurrent
    rcases hcurrent with ⟨-, rfl⟩ | ⟨-, hold⟩
    · obtain ⟨-, -, -, -, -, action, epoch, expiry, -, -, -, rfl⟩ := revealed_eq_ok hresult
      rfl
    · exact absurd hold hnew
  · rw [heq, OrderedMap.getElem?_insert_eq_some_iff] at hcurrent
    rcases hcurrent with ⟨-, rfl⟩ | ⟨-, hold⟩
    · obtain ⟨-, predecessor, -, -, -, -, action, epoch, expiry, -, -, -, -, -, -, rfl⟩ :=
        refreshed_eq_ok hresult
      rfl
    · exact absurd hold hnew
  · rw [heq] at hcurrent
    exact absurd hcurrent hnew
  · rw [heq] at hcurrent
    exact absurd hcurrent hnew

end Ledger

/-! ### Inside a block -/

/-- The state inside a block, after some of its transactions. -/
def InsideBlock (reducer : Reducer) (block : Block) (evidence : List ReferencedCommit)
    (before : List Transaction) (terminated : List Termination) (o : OpenBlock) : Prop :=
  ∃ supplied compacted started decisions,
    admission reducer.rules.parameters reducer.nextHeight reducer.previousHash reducer.commits block
      evidence = .ok supplied ∧
    reducer.startBlock block.height supplied = some (compacted, started) ∧
    started.applyTransactions reducer.rules block.height before = some (decisions, terminated, o)

namespace InsideBlock

variable {reducer : Reducer} {block : Block} {evidence : List ReferencedCommit}
  {before : List Transaction} {terminated : List Termination} {o : OpenBlock}

/-- An admitted block gets past any of its transactions. -/
theorem of_admission (hindexed : reducer.toRecords.Indexed)
    {supplied : OrderedMap CommitRef Commitment}
    (hadmission : admission reducer.rules.parameters reducer.nextHeight reducer.previousHash
      reducer.commits block evidence = .ok supplied) (before : List Transaction) :
    ∃ terminated o, InsideBlock reducer block evidence before terminated o := by
  obtain ⟨compacted, started, hstart, htracks, -⟩ := Reducer.startBlock_spec (C := Set.univ)
    (H := Set.univ) hindexed (fun _ _ ↦ trivial) (fun _ _ ↦ trivial) block.height
    fun _ (_ : _ ∈ supplied) ↦ trivial
  have hwithin : ∀ transaction ∈ before, transaction.Within block.height Set.univ Set.univ :=
    fun _ _ ↦ ⟨fun _ _ ↦ trivial, fun _ _ _ _ ↦ trivial⟩
  obtain ⟨o, hrun, -⟩ := htracks.applyTransactions reducer.rules hwithin
  exact ⟨_, o, supplied, compacted, started, _, hadmission, hstart, hrun⟩

/-- **The records inside a block** are those of the scanning reducer, and so are the next ones. -/
theorem ledger_eq (h : InsideBlock reducer block evidence before terminated o)
    (hindexed : reducer.toRecords.Indexed) :
    ∃ supplied, admission reducer.rules.parameters reducer.nextHeight reducer.previousHash
        reducer.commits block evidence = .ok supplied ∧
      o.records.ledger = ((reducer.ledger.startBlock reducer.rules.parameters block.height
        supplied).applyTransactions reducer.rules block.height before).2.2 ∧
      ∀ transaction, ∃ terminated' o',
        o.applyTransactionDetailed reducer.rules block.height transaction terminated =
          some ((o.records.ledger.applyTransaction reducer.rules block.height transaction).1,
            terminated', o') ∧
        o'.records.ledger =
          (o.records.ledger.applyTransaction reducer.rules block.height transaction).2.2 := by
  obtain ⟨supplied, compacted, started, decisions, hadmission, hstart, hrun⟩ := h
  obtain ⟨compacted', started', hstart', htracks, hledger, -⟩ := Reducer.startBlock_spec
    (C := Set.univ) (H := Set.univ) hindexed (fun _ _ ↦ trivial) (fun _ _ ↦ trivial) block.height
    fun _ (_ : _ ∈ supplied) ↦ trivial
  rw [hstart, Option.some.injEq, Prod.mk.injEq] at hstart'
  obtain ⟨-, rfl⟩ := hstart'
  have hwithin : ∀ transaction : Transaction, transaction.Within block.height Set.univ Set.univ :=
    fun _ ↦ ⟨fun _ _ ↦ trivial, fun _ _ _ _ ↦ trivial⟩
  obtain ⟨o', hrun', hinside, ho⟩ := htracks.applyTransactions reducer.rules fun a _ ↦ hwithin a
  rw [hrun, Option.some.injEq, Prod.mk.injEq, Prod.mk.injEq] at hrun'
  obtain ⟨-, -, rfl⟩ := hrun'
  refine ⟨supplied, hadmission, by rw [ho, hledger], fun transaction ↦ ?_⟩
  obtain ⟨o', happly, -, ho'⟩ := hinside.applyTransactionDetailed reducer.rules
    (hwithin transaction) terminated
  exact ⟨_, o', happly, ho'⟩

end InsideBlock

/-- The invariant before a transaction of an admitted block: its position is still free. -/
theorem Ledger.Inv.applyTransactions_before {ledger : Ledger} {rules : Rules} {height : U32}
    {previous : Option U32} {before after : List Transaction} {transaction : Transaction}
    (hcheck : checkTransactions previous (before ++ transaction :: after) = .ok ())
    (h : ledger.Inv rules.parameters height (nextIndex previous)) :
    ∃ bound ≤ transaction.txIndex.val,
      (ledger.applyTransactions rules height before).2.2.Inv rules.parameters height bound := by
  induction before generalizing ledger previous with
  | nil => exact ⟨_, (checkTransactions_cons hcheck).1, h⟩
  | cons first before ih =>
    obtain ⟨hbound, -, hrest⟩ := checkTransactions_cons hcheck
    exact ih hrest (h.applyTransaction hbound)

/-- The invariant inside an admitted block, before one of its transactions. -/
theorem InsideBlock.inv {reducer : Reducer} {block : Block} {evidence : List ReferencedCommit}
    {before after : List Transaction} {transaction : Transaction} {terminated : List Termination}
    {o : OpenBlock} (h : InsideBlock reducer block evidence before terminated o)
    (hindexed : reducer.toRecords.Indexed) (hinv : reducer.scan.Inv)
    (hblock : block.transactions = before ++ transaction :: after) :
    ∃ bound ≤ transaction.txIndex.val,
      o.records.ledger.Inv reducer.rules.parameters block.height bound := by
  obtain ⟨supplied, hadmission, hledger, -⟩ := h.ledger_eq hindexed
  obtain ⟨hheight, -, hcheck, hsupply⟩ := admission_eq_ok hadmission
  rw [hblock] at hcheck
  rw [hledger]
  exact Ledger.Inv.applyTransactions_before hcheck (hinv.startBlock hheight hsupply)

/-- A rejected operation changes nothing. -/
theorem OpenBlock.applyOperation_of_rejected {o : OpenBlock} {rules : Rules} {height : U32}
    {transaction : Transaction}
    (h : (o.applyOperation rules height transaction).1.accepted = none) :
    (o.applyOperation rules height transaction).2 = o := by
  revert h
  rw [applyOperation]
  rcases transaction.operation with - | (commitment | op | op)
  · exact fun _ ↦ rfl
  · intro h
    cases h
  · dsimp only
    rcases o.records.ledger.revealed rules height transaction op with clause | ⟨nameId, head⟩
    · exact fun _ ↦ rfl
    · intro h
      cases h
  · dsimp only
    rcases o.records.ledger.refreshed rules height transaction op with clause | ⟨nameId, head⟩
    · exact fun _ ↦ rfl
    · intro h
      cases h

/-- Dropping a rejected operation leaves the state after the transaction as it is. -/
theorem OpenBlock.applyTransactionDetailed_of_rejected {o o' : OpenBlock} {rules : Rules}
    {height : U32} {transaction : Transaction} {terminated terminated' : List Termination}
    {decision : OperationDecision}
    (h : o.applyTransactionDetailed rules height transaction terminated =
      some (decision, terminated', o')) (hrejected : decision.accepted = none) :
    o.applyTransactionDetailed rules height { transaction with operation := none } terminated =
      some (⟨none, .blockOrder⟩, terminated', o') := by
  rw [applyTransactionDetailed] at h ⊢
  simp only [Option.bind_eq_bind, Option.bind_eq_some_iff, Option.pure_def, Option.some.injEq,
    Prod.mk.injEq] at h ⊢
  obtain ⟨spent, hspent, hdecision, hfold⟩ := h
  have hsame : (o.applyOperation rules height transaction).2 = o := by
    refine applyOperation_of_rejected ?_
    rw [hdecision]
    exact hrejected
  rw [hsame] at hfold
  exact ⟨spent, hspent, rfl, hfold⟩

/-- **Exact effect of a transaction on existing heads.** Inside an accepted block of a reachable
state, a transaction does to every head what `HeadEffect` says; a head it installs is not
terminated by it; and a rejected operation could as well not be there. -/
theorem transaction_effect {parameters : Parameters} {parent : Bytes32} {verifier : ProofVerifier}
    {reducer next : Reducer} (hreached : FromNew parameters parent verifier reducer)
    {block : Block} {evidence : List ReferencedCommit} {outcome : BlockOutcome}
    (haccepted : reducer.applyBlockDetailed block evidence = some (.ok outcome, next))
    {before after : List Transaction} {transaction : Transaction}
    (hblock : block.transactions = before ++ transaction :: after) :
    ∃ o terminated decision terminated' o',
      InsideBlock reducer block evidence before terminated o ∧
      o.applyTransactionDetailed reducer.rules block.height transaction terminated =
        some (decision, terminated', o') ∧
      (∀ (nameId : NameId) (head : Head), o.records.heads[nameId]? = some head →
        HeadEffect reducer.rules block.height transaction decision nameId head
          o'.records.heads[nameId]?) ∧
      (∀ (nameId : NameId) (head : Head), o'.records.heads[nameId]? = some head →
        head.producer.height = block.height → head.producer.txIndex = transaction.txIndex →
        head.terminalHeight = none) ∧
      (decision.accepted = none →
        o.applyTransactionDetailed reducer.rules block.height { transaction with operation := none }
          terminated = some (⟨none, .blockOrder⟩, terminated', o')) := by
  obtain ⟨supplied, -, -, -, -, -, hadmission, -⟩ :=
    Reducer.applyBlockDetailed_eq_ok_iff.1 haccepted
  obtain ⟨terminated, o, hinside⟩ := InsideBlock.of_admission hreached.indexed hadmission before
  -- the records inside the block satisfy the invariant, and the transaction's position is free
  obtain ⟨bound, hbound, hbefore⟩ := hinside.inv hreached.indexed hreached.inv hblock
  obtain ⟨-, -, -, hnext⟩ := hinside.ledger_eq hreached.indexed
  obtain ⟨terminated', o', happly, ho'⟩ := hnext transaction
  refine ⟨o, _, _, _, o', hinside, happly, fun nameId head hhead ↦ ?_, fun nameId head hhead ↦ ?_,
    OpenBlock.applyTransactionDetailed_of_rejected happly⟩
  · have heffect := hbefore.headEffect hbound hhead
    rw [← ho'] at heffect
    exact heffect
  · rw [show o'.records.heads = o'.records.ledger.heads from rfl, ho'] at hhead
    exact hbefore.installed_active hbound hhead

end Effects

namespace Sample

/-- The states of the small chain exist, and its third block is accepted. -/
theorem exists_before_spend : ∃ reducer outcome next, FromNew parameters parent verifier reducer ∧
    reducer.applyBlockDetailed block2 [] = some (.ok outcome, next) := by
  have hrun : ((start.run [.applyBlock block0 [], .applyBlock block1 []]).bind fun result ↦
      result.2.accept (block2, [])).isSome = true := by decide +kernel
  rw [Option.isSome_iff_exists] at hrun
  obtain ⟨next, hnext⟩ := hrun
  rw [Option.bind_eq_some_iff] at hnext
  obtain ⟨⟨replies, reducer⟩, hreducer, haccept⟩ := hnext
  obtain ⟨outcome, happly⟩ := Reducer.accept_eq_some_iff.1 haccept
  exact ⟨reducer, outcome, next, ⟨start, _, replies, new_eq_start, hreducer⟩, happly⟩

theorem transaction_effect_spend : ∃ reducer outcome next,
    FromNew parameters parent verifier reducer ∧
    reducer.applyBlockDetailed block2 [] = some (.ok outcome, next) ∧
    ∃ o terminated decision terminated' o',
      InsideBlock reducer block2 [] [] terminated o ∧
      o.applyTransactionDetailed reducer.rules block2.height spendTransaction terminated =
        some (decision, terminated', o') ∧
      (∀ (nameId : NameId) (head : Head), o.records.heads[nameId]? = some head →
        HeadEffect reducer.rules block2.height spendTransaction decision nameId head
          o'.records.heads[nameId]?) ∧
      (∀ (nameId : NameId) (head : Head), o'.records.heads[nameId]? = some head →
        head.producer.height = block2.height → head.producer.txIndex = spendTransaction.txIndex →
        head.terminalHeight = none) ∧
      (decision.accepted = none →
        o.applyTransactionDetailed reducer.rules block2.height
          { spendTransaction with operation := none } terminated =
            some (⟨none, .blockOrder⟩, terminated', o')) := by
  obtain ⟨reducer, outcome, next, hreached, happly⟩ := exists_before_spend
  exact ⟨reducer, outcome, next, hreached, happly, transaction_effect hreached happly rfl⟩

end Sample

end CoppiceNames
