import CoppiceNames.Reducer.Effects

/-!
# What the head of one name depends on

Two ledgers that agree on the head of a name are followed through a block whose operations may
differ in the two runs, as long as the actions are the same and the operations that can touch the
name are the same. The COMMITs of the two ledgers may differ as well: only a REVEAL of the name
reads them, and only the COMMIT it references (`applyTransactions_agree`).

What a block does to the COMMITs is independent of the heads: each COMMIT operation adds its own
position (`getElem?_applyTransactions_commits`), and no operation touches an earlier one.
-/

open Std hiding not_le not_lt

namespace CoppiceNames

section Locality

variable [Primitives]

/-- The operation is a REVEAL or a REFRESH of the name. -/
def Operation.concerns (operation : Operation) (nameId : NameId) : Prop :=
  match operation with
  | .commit _ => False
  | .reveal op => op.name.id = .ok nameId
  | .refresh op => op.name.id = .ok nameId

/-- The transaction has an operation that can touch the head of the name at this height. -/
def Transaction.Touches (transaction : Transaction) (parameters : Parameters) (height : U32)
    (nameId : NameId) : Prop :=
  parameters.acceptsOperation nameId height = true ∧
    ∃ op, transaction.operation = some op ∧ op.concerns nameId

namespace Ledger

variable {F R : Ledger} {rules : Rules} {height : U32} {nameId : NameId}
  {transaction transaction' : Transaction}

/-- An operation that does not touch the name leaves its head alone. -/
theorem applyOperation_untouched (ledger : Ledger)
    (h : ¬ transaction.Touches rules.parameters height nameId) :
    (ledger.applyOperation rules height transaction).2.heads[nameId]? =
      ledger.heads[nameId]? := by
  rcases applyOperation_cases ledger rules height transaction with
    ⟨op, id, head, hop, hresult, heq⟩ | ⟨op, id, head, hop, hresult, heq⟩ |
      ⟨commitment, -, heq⟩ | ⟨clause, heq⟩
  · obtain ⟨hname, -, hwindow, -⟩ := revealed_eq_ok hresult
    have hne : id ≠ nameId := by
      rintro rfl
      exact h ⟨hwindow, _, hop, hname⟩
    rw [heq, OrderedMap.getElem?_insert_of_ne hne]
  · obtain ⟨hname, predecessor, -, -, -, hwindow, -⟩ := refreshed_eq_ok hresult
    have hne : id ≠ nameId := by
      rintro rfl
      exact h ⟨hwindow, _, hop, hname⟩
    rw [heq, OrderedMap.getElem?_insert_of_ne hne]
  · rw [heq]
  · rw [heq]

/-- A REVEAL of the name reads its head and, if the schedule allows its COMMIT, that COMMIT. -/
theorem revealed_congr {op : Reveal} (hname : op.name.id = .ok nameId)
    (hheads : F.heads[nameId]? = R.heads[nameId]?)
    (hcommit : rules.parameters.acceptsCommit op.commit.height height = true →
      F.commits[op.commit]? = R.commits[op.commit]?) :
    F.revealed rules height transaction op = R.revealed rules height transaction op := by
  have hcontains : F.heads.contains nameId = R.heads.contains nameId := by
    rw [ExtTreeMap.contains_eq_isSome_getElem?, ExtTreeMap.contains_eq_isSome_getElem?, hheads]
  rw [revealed, revealed, hname]
  dsimp only
  rw [hcontains]
  by_cases haccepts : rules.parameters.acceptsCommit op.commit.height height = true
  · rw [hcommit haccepts]
  · rw [Bool.not_eq_true] at haccepts
    rw [if_pos haccepts, if_pos haccepts]

/-- A REFRESH of the name reads its head. -/
theorem refreshed_congr {op : Refresh} (hname : op.name.id = .ok nameId)
    (hheads : F.heads[nameId]? = R.heads[nameId]?) :
    F.refreshed rules height transaction op = R.refreshed rules height transaction op := by
  rw [refreshed, refreshed, hname]
  dsimp only
  rw [hheads]

/-- An operation of the name has the same effect on its head in both ledgers. -/
theorem applyOperation_congr {op : Operation} (hop : transaction.operation = some op)
    (hconcerns : op.concerns nameId) (hheads : F.heads[nameId]? = R.heads[nameId]?)
    (hcommit : ∀ reveal, op = .reveal reveal →
      rules.parameters.acceptsCommit reveal.commit.height height = true →
      F.commits[reveal.commit]? = R.commits[reveal.commit]?) :
    (F.applyOperation rules height transaction).2.heads[nameId]? =
      (R.applyOperation rules height transaction).2.heads[nameId]? := by
  rw [applyOperation, applyOperation, hop]
  rcases op with commitment | op | op
  · exact absurd hconcerns (by simp [Operation.concerns])
  · dsimp only
    rw [revealed_congr hconcerns hheads (hcommit op rfl)]
    rcases R.revealed rules height transaction op with clause | ⟨id, head⟩
    · exact hheads
    · dsimp only
      rw [ExtTreeMap.getElem?_insert, ExtTreeMap.getElem?_insert, hheads]
  · dsimp only
    rw [refreshed_congr hconcerns hheads]
    rcases R.refreshed rules height transaction op with clause | ⟨id, head⟩
    · exact hheads
    · dsimp only
      rw [ExtTreeMap.getElem?_insert, ExtTreeMap.getElem?_insert, hheads]

/-- The spend pass reads the head of the name and the actions. -/
theorem afterSpend_congr (hheads : F.heads[nameId]? = R.heads[nameId]?)
    (hactions : transaction'.actions = transaction.actions) (head : Head) :
    F.afterSpend height transaction nameId head = R.afterSpend height transaction' nameId head := by
  have hspent : F.spent transaction nameId head = R.spent transaction' nameId head := by
    simp only [spent, hheads, Transaction.spends, hactions]
  rw [afterSpend, afterSpend, hspent]

/-- Two transactions with the same actions and position, and the same operation where one of them
touches the name. -/
structure SameFor (parameters : Parameters) (height : U32) (nameId : NameId)
    (transaction transaction' : Transaction) : Prop where
  actions : transaction'.actions = transaction.actions
  eq_of_touches : transaction.Touches parameters height nameId ∨
    transaction'.Touches parameters height nameId → transaction' = transaction

/-- The COMMIT that a REVEAL of the name may use is the same in both ledgers. -/
def SameCommit (F R : Ledger) (parameters : Parameters) (height : U32) (nameId : NameId)
    (transaction : Transaction) : Prop :=
  ∀ op, transaction.operation = some (.reveal op) → op.name.id = .ok nameId →
    parameters.acceptsOperation nameId height = true →
    parameters.acceptsCommit op.commit.height height = true →
    F.commits[op.commit]? = R.commits[op.commit]?

/-- **One transaction.** -/
theorem applyTransaction_agree (hheads : F.heads[nameId]? = R.heads[nameId]?)
    (hsame : SameFor rules.parameters height nameId transaction transaction')
    (hcommit : SameCommit F R rules.parameters height nameId transaction) :
    (F.applyTransaction rules height transaction).2.2.heads[nameId]? =
      (R.applyTransaction rules height transaction').2.2.heads[nameId]? := by
  have hoperation : (F.applyOperation rules height transaction).2.heads[nameId]? =
      (R.applyOperation rules height transaction').2.heads[nameId]? := by
    by_cases htouches : transaction.Touches rules.parameters height nameId ∨
        transaction'.Touches rules.parameters height nameId
    · have heq := hsame.eq_of_touches htouches
      rw [heq, or_self] at htouches
      rw [heq]
      obtain ⟨hwindow, op, hop, hconcerns⟩ := htouches
      refine applyOperation_congr hop hconcerns hheads fun reveal hreveal ↦ ?_
      subst hreveal
      exact hcommit reveal hop hconcerns hwindow
    · rw [not_or] at htouches
      rw [applyOperation_untouched F htouches.1, applyOperation_untouched R htouches.2, hheads]
  rw [applyTransaction, applyTransaction]
  dsimp only
  rw [getElem?_terminate, getElem?_terminate, hoperation]
  exact congrArg (fun f ↦ Option.map f _) (funext (afterSpend_congr hheads hsame.actions))

/-! ### COMMITs -/

/-- The COMMITs after a transaction: at most its own is added. -/
theorem getElem?_applyTransaction_commits (ledger : Ledger) (rules : Rules) (height : U32)
    (transaction : Transaction) (reference : CommitRef) :
    (ledger.applyTransaction rules height transaction).2.2.commits[reference]? =
      match transaction.operation with
      | some (.commit commitment) =>
        if reference = ⟨height, transaction.txIndex, transaction.txid⟩ then some commitment
        else ledger.commits[reference]?
      | _ => ledger.commits[reference]? := by
  rw [applyTransaction]
  dsimp only
  rw [terminate_commits, applyOperation]
  rcases transaction.operation with - | (commitment | op | op)
  · rfl
  · dsimp only
    rw [ExtTreeMap.getElem?_insert]
    simp only [LawfulEqCmp.compare_eq_iff_eq, eq_comm (b := reference)]
  · dsimp only
    rcases ledger.revealed rules height transaction op with clause | ⟨id, head⟩ <;> rfl
  · dsimp only
    rcases ledger.refreshed rules height transaction op with clause | ⟨id, head⟩ <;> rfl

/-- A COMMIT of another height is not touched. -/
theorem getElem?_applyTransaction_commits_of_ne (ledger : Ledger) (rules : Rules) {height : U32}
    (transaction : Transaction) {reference : CommitRef} (hne : reference.height ≠ height) :
    (ledger.applyTransaction rules height transaction).2.2.commits[reference]? =
      ledger.commits[reference]? := by
  rw [getElem?_applyTransaction_commits]
  split
  · rw [if_neg]
    rintro rfl
    exact hne rfl
  · rfl

/-- **All transactions of a block, for one name.** -/
theorem applyTransactions_agree {transactions : List Transaction} {g : Transaction → Transaction}
    (hheads : F.heads[nameId]? = R.heads[nameId]?)
    (hsame : ∀ transaction ∈ transactions,
      SameFor rules.parameters height nameId transaction (g transaction))
    (hcommit : ∀ transaction ∈ transactions,
      SameCommit F R rules.parameters height nameId transaction) :
    (F.applyTransactions rules height transactions).2.2.heads[nameId]? =
      (R.applyTransactions rules height (transactions.map g)).2.2.heads[nameId]? := by
  induction transactions generalizing F R with
  | nil => exact hheads
  | cons transaction rest ih =>
    have hfirst := applyTransaction_agree hheads (hsame transaction List.mem_cons_self)
      (hcommit transaction List.mem_cons_self)
    refine ih hfirst (fun t ht ↦ hsame t (List.mem_cons_of_mem transaction ht))
      fun t ht op hop hname hwindow haccepts ↦ ?_
    -- a usable COMMIT is older than the block, so the first transaction did not touch it
    have hmature := Parameters.acceptsCommit_iff.1 haccepts
    have hpos := rules.valid.maturity_pos
    have hne : op.commit.height ≠ height := by
      intro heq
      rw [heq] at hmature
      omega
    rw [getElem?_applyTransaction_commits_of_ne F rules transaction hne,
      getElem?_applyTransaction_commits_of_ne R rules (g transaction) hne]
    exact hcommit t (List.mem_cons_of_mem transaction ht) op hop hname hwindow haccepts

/-- The block-start phases, for one name. -/
theorem startBlock_agree (hheads : F.heads[nameId]? = R.heads[nameId]?) (parameters : Parameters)
    (supplied supplied' : OrderedMap CommitRef Commitment) :
    (F.startBlock parameters height supplied).heads[nameId]? =
      (R.startBlock parameters height supplied').heads[nameId]? := by
  rw [getElem?_startBlock, getElem?_startBlock, hheads]

end Ledger

/-- The transactions contain the COMMIT at this position of their block. -/
def CommitIn (transactions : List Transaction) (reference : CommitRef) (commitment : Commitment) :
    Prop :=
  ∃ transaction ∈ transactions, transaction.txIndex = reference.txIndex ∧
    transaction.txid = reference.txid ∧ transaction.operation = some (.commit commitment)

/-- **The COMMITs after the transactions of a block**: those before it and those it contains. -/
theorem Ledger.Inv.getElem?_applyTransactions_commits {ledger : Ledger} {rules : Rules}
    {height : U32} {previous : Option U32} {transactions : List Transaction}
    (hcheck : checkTransactions previous transactions = .ok ())
    (h : ledger.Inv rules.parameters height (nextIndex previous)) {reference : CommitRef}
    {commitment : Commitment} :
    (ledger.applyTransactions rules height transactions).2.2.commits[reference]? =
        some commitment ↔
      ledger.commits[reference]? = some commitment ∨
        reference.height = height ∧ CommitIn transactions reference commitment := by
  induction transactions generalizing ledger previous with
  | nil => simp [Ledger.applyTransactions, CommitIn]
  | cons transaction rest ih =>
    obtain ⟨hbound, -, hrest⟩ := checkTransactions_cons hcheck
    refine (ih hrest (h.applyTransaction hbound)).trans ?_
    rw [getElem?_applyTransaction_commits]
    -- the position of the first transaction was free
    have hfree : ledger.commits[(⟨height, transaction.txIndex, transaction.txid⟩ : CommitRef)]? =
        none := by
      refine ExtTreeMap.getElem?_eq_none fun hmem ↦ ?_
      have hlt := (h.commit _ hmem).index_lt rfl
      dsimp only at hlt
      omega
    have hcons : CommitIn (transaction :: rest) reference commitment ↔
        (transaction.txIndex = reference.txIndex ∧ transaction.txid = reference.txid ∧
          transaction.operation = some (.commit commitment)) ∨
          CommitIn rest reference commitment := by
      simp only [CommitIn, List.mem_cons, exists_eq_or_imp]
    rw [hcons]
    split
    · rename_i own hop
      by_cases hown : reference = ⟨height, transaction.txIndex, transaction.txid⟩
      · subst hown
        rw [if_pos rfl, hfree, hop]
        simp
      · rw [if_neg hown]
        have hother : ¬ (reference.height = height ∧ transaction.txIndex = reference.txIndex ∧
            transaction.txid = reference.txid) := by
          rintro ⟨h₁, h₂, h₃⟩
          exact hown (by rw [← h₁, h₂, h₃])
        grind
    · rename_i hnot
      have hother : transaction.operation ≠ some (.commit commitment) := fun hop ↦
        hnot commitment hop
      grind

end Locality

end CoppiceNames
