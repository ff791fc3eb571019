import CoppiceNames.Reducer.Apply

/-!
# The scanning reducer

The reference that the indexed reducer is compared with: the same rules stated over the
authoritative records alone. It has no indexes and no journals. Every phase of a block scans all
records — expired leases are marked, released heads and old COMMITs are filtered out, and a head is
spent when it was current before the transaction's operation, still is after it, and an action of
the transaction spends its future nullifier.

What one phase does to the record of one name is one lemma (`getElem?_markExpired` and so on); the
results about whole runs are assembled from these.
-/

open Std

namespace CoppiceNames

section Scan

variable [Primitives]

namespace Head

variable (head : Head)

/-- The head after the expiry scan of a block. -/
def expire (height : U32) : Head :=
  if head.terminalHeight = none ∧ head.expiryHeight ≤ height then
    { head with terminalHeight := some head.expiryHeight }
  else head

@[simp]
theorem expire_producer (height : U32) : (head.expire height).producer = head.producer := by
  rw [expire]
  split <;> rfl

/-- The head's cooldown is over. -/
def released (parameters : Parameters) (height : U32) : Bool :=
  head.terminalHeight.any fun terminal ↦
    height.val ≥ terminal.val + parameters.cooldownBlocks.val

end Head

/-- Some action of the transaction spends the head's future nullifier. -/
def Transaction.spends (transaction : Transaction) (head : Head) : Bool :=
  transaction.actions.any fun action ↦ action.nullifier = head.futureNf

namespace Ledger

/-- No records. -/
def empty : Ledger := ⟨∅, ∅⟩

variable (ledger : Ledger)

/-- Mark every head whose lease has ended. -/
def markExpired (height : U32) : Ledger :=
  { ledger with heads := ledger.heads.map fun _ head ↦ head.expire height }

/-- The heads to be deleted at this height, in name order. -/
def compactions (parameters : Parameters) (height : U32) : List Compaction :=
  (ledger.heads.toList.filter fun entry ↦ entry.2.released parameters height).map fun entry ↦
    ⟨entry.1, entry.2.producer, height⟩

/-- Delete every head whose cooldown is over. -/
def compact (parameters : Parameters) (height : U32) : Ledger :=
  { ledger with heads := ledger.heads.filter fun _ head ↦ !head.released parameters height }

/-- Delete every COMMIT at the end of its lifetime. -/
def prune (parameters : Parameters) (height : U32) : Ledger :=
  { ledger with commits := ledger.commits.filter fun reference _ ↦
      height.val - reference.height.val < parameters.commitTtlBlocks.val }

/-- Add the evidence of a block. -/
def addEvidence (supplied : OrderedMap CommitRef Commitment) : Ledger :=
  { ledger with commits := ledger.commits ∪ supplied }

/-- Decide an operation and install what it creates. -/
def applyOperation (rules : Rules) (height : U32) (transaction : Transaction) :
    OperationDecision × Ledger :=
  match transaction.operation with
  | some (.commit commitment) =>
    let reference : CommitRef := ⟨height, transaction.txIndex, transaction.txid⟩
    (⟨some .commit, .commitAccept⟩,
      { ledger with commits := ledger.commits.insert reference commitment })
  | some (.reveal op) =>
    match ledger.revealed rules height transaction op with
    | .ok (nameId, head) =>
      (⟨some .reveal, .revealAccept⟩, { ledger with heads := ledger.heads.insert nameId head })
    | .error clause => (⟨none, clause⟩, ledger)
  | some (.refresh op) =>
    match ledger.refreshed rules height transaction op with
    | .ok (nameId, head) =>
      (⟨some .refresh, .refreshAccept⟩, { ledger with heads := ledger.heads.insert nameId head })
    | .error clause => (⟨none, clause⟩, ledger)
  | none => (⟨none, .blockOrder⟩, ledger)

/-- A head that is not terminal, was current before the operation, and is spent by an action. -/
def spent (before : Ledger) (transaction : Transaction) (nameId : NameId) (head : Head) : Bool :=
  head.terminalHeight.isNone && (before.heads[nameId]?).any fun previous ↦
    transaction.spends previous && decide (previous.producer = head.producer)

/-- The heads terminated after an operation, in name order. -/
def terminations (before : Ledger) (height : U32) (transaction : Transaction) :
    List Termination :=
  (ledger.heads.toList.filter fun entry ↦ before.spent transaction entry.1 entry.2).map
    fun entry ↦ ⟨entry.1, entry.2.producer, height⟩

/-- A head after the spends of a transaction. -/
def afterSpend (before : Ledger) (height : U32) (transaction : Transaction) (nameId : NameId)
    (head : Head) : Head :=
  if before.spent transaction nameId head then { head with terminalHeight := some height }
  else head

/-- Terminate every head that is spent. -/
def terminate (before : Ledger) (height : U32) (transaction : Transaction) : Ledger :=
  { ledger with heads := ledger.heads.map (before.afterSpend height transaction) }

/-- One transaction: its operation, then the spends of the heads that were current before it. -/
def applyTransaction (rules : Rules) (height : U32) (transaction : Transaction) :
    OperationDecision × List Termination × Ledger :=
  let after := ledger.applyOperation rules height transaction
  (after.1, after.2.terminations ledger height transaction,
    after.2.terminate ledger height transaction)

/-- The transactions of a block, in order. -/
def applyTransactions (ledger : Ledger) (rules : Rules) (height : U32) :
    List Transaction → List OperationDecision × List Termination × Ledger
  | [] => ([], [], ledger)
  | transaction :: rest =>
    let first := ledger.applyTransaction rules height transaction
    let last := applyTransactions first.2.2 rules height rest
    (first.1 :: last.1, first.2.1 ++ last.2.1, last.2.2)

/-- The ledger before the transactions of a block: the three scans, then the evidence. -/
def startBlock (parameters : Parameters) (height : U32)
    (supplied : OrderedMap CommitRef Commitment) : Ledger :=
  let compacted := (ledger.markExpired height).compact parameters height
  (compacted.prune parameters height).addEvidence supplied

end Ledger

/-- What the scanning reducer reports about a block. -/
structure ScanOutcome where
  accepted : List Accepted
  decisions : List OperationDecision
  compacted : List Compaction
  terminated : List Termination
  deriving DecidableEq

/-- The part of a block outcome that does not come from the journal. -/
def BlockOutcome.scan (outcome : BlockOutcome) : ScanOutcome :=
  ⟨outcome.accepted, outcome.decisions, outcome.compacted, outcome.terminated⟩

/-- The state of the scanning reducer. -/
structure ScanReducer where
  rules : Rules
  nextHeight : Option U32
  tipHeight : Option U32
  previousHash : Bytes32
  ledger : Ledger

/-- A reducer without its indexes and its journals. -/
def Reducer.scan (reducer : Reducer) : ScanReducer where
  rules := reducer.rules
  nextHeight := reducer.nextHeight
  tipHeight := reducer.tipHeight
  previousHash := reducer.previousHash
  ledger := reducer.ledger

namespace ScanReducer

/-- The state after an admitted block. -/
def advance (s : ScanReducer) (block : Block) (ledger : Ledger) : ScanReducer where
  rules := s.rules
  nextHeight := U32.checkedAdd block.height 1
  tipHeight := some block.height
  previousHash := block.hash
  ledger := ledger

/-- **The reference step.** The admission checks are those of `apply_block_detailed`; everything
after them is a scan. -/
def applyBlock (s : ScanReducer) (block : Block) (evidence : List ReferencedCommit) :
    Except ApplyError (ScanOutcome × ScanReducer) :=
  match admission s.rules.parameters s.nextHeight s.previousHash s.ledger.commits block
      evidence with
  | .error e => .error e
  | .ok supplied =>
    let parameters := s.rules.parameters
    let started := s.ledger.startBlock parameters block.height supplied
    let result := started.applyTransactions s.rules block.height block.transactions
    .ok
      (⟨result.1.filterMap OperationDecision.accepted, result.1,
          (s.ledger.markExpired block.height).compactions parameters block.height, result.2.1⟩,
        s.advance block result.2.2)

end ScanReducer

/-! ### What each phase does to one record -/

namespace Ledger

variable (ledger : Ledger)

@[simp]
theorem getElem?_markExpired (height : U32) (nameId : NameId) :
    (ledger.markExpired height).heads[nameId]? =
      ledger.heads[nameId]?.map fun head ↦ head.expire height := by
  rw [markExpired, ExtTreeMap.getElem?_map]

@[simp]
theorem markExpired_commits (height : U32) :
    (ledger.markExpired height).commits = ledger.commits := rfl

@[simp]
theorem getElem?_compact (parameters : Parameters) (height : U32) (nameId : NameId) :
    (ledger.compact parameters height).heads[nameId]? =
      ledger.heads[nameId]?.filter fun head ↦ !head.released parameters height := by
  rw [compact, ExtTreeMap.getElem?_filter']

@[simp]
theorem compact_commits (parameters : Parameters) (height : U32) :
    (ledger.compact parameters height).commits = ledger.commits := rfl

@[simp]
theorem getElem?_prune (parameters : Parameters) (height : U32) (reference : CommitRef) :
    (ledger.prune parameters height).commits[reference]? =
      ledger.commits[reference]?.filter fun _ ↦
        height.val - reference.height.val < parameters.commitTtlBlocks.val := by
  rw [prune, ExtTreeMap.getElem?_filter']

@[simp]
theorem prune_heads (parameters : Parameters) (height : U32) :
    (ledger.prune parameters height).heads = ledger.heads := rfl

@[simp]
theorem getElem?_addEvidence (supplied : OrderedMap CommitRef Commitment) (reference : CommitRef) :
    (ledger.addEvidence supplied).commits[reference]? =
      (supplied[reference]?).or ledger.commits[reference]? := by
  rw [addEvidence, ExtTreeMap.getElem?_union]

@[simp]
theorem addEvidence_heads (supplied : OrderedMap CommitRef Commitment) :
    (ledger.addEvidence supplied).heads = ledger.heads := rfl

@[simp]
theorem getElem?_terminate (before : Ledger) (height : U32) (transaction : Transaction)
    (nameId : NameId) : (ledger.terminate before height transaction).heads[nameId]? =
      ledger.heads[nameId]?.map (before.afterSpend height transaction nameId) := by
  rw [terminate, ExtTreeMap.getElem?_map]

@[simp]
theorem terminate_commits (before : Ledger) (height : U32) (transaction : Transaction) :
    (ledger.terminate before height transaction).commits = ledger.commits := rfl

/-! ### What an accepted operation establishes -/

variable {ledger} {rules : Rules} {height : U32} {transaction : Transaction} {nameId : NameId}
  {head : Head}

/-- An accepted REVEAL: the name is free, the schedule and the COMMIT allow it, and the head it
installs carries its own position, epoch and expiry. -/
theorem revealed_eq_ok {op : Reveal}
    (h : ledger.revealed rules height transaction op = .ok (nameId, head)) :
    op.name.id = .ok nameId ∧ ledger.heads[nameId]? = none ∧
      rules.parameters.acceptsOperation nameId height = true ∧
      rules.parameters.acceptsCommit op.commit.height height = true ∧
      (∃ commitment, ledger.commits[op.commit]? = some commitment) ∧
      ∃ action epoch expiry, transaction.actions[op.actionIndex.val]? = some action ∧
        rules.parameters.epoch height = .ok epoch ∧ rules.parameters.expiry height = .ok expiry ∧
        head = transaction.successor height op.name op.ua op.actionIndex action.commitment
          op.successorFutureNf epoch expiry := by
  unfold revealed at h
  dsimp only at h
  split at h
  · cases h
  rename_i id hid
  split at h
  · cases h
  rename_i hfree
  split at h
  · cases h
  rename_i hschedule
  split at h
  · cases h
  rename_i hcommit
  split at h
  · cases h
  rename_i commitment hpending
  split at h
  · cases h
  rename_i action haction
  split at h
  · cases h
  split at h
  · cases h
  rename_i epoch hepoch
  split at h
  · cases h
  split at h
  · cases h
  rename_i expiry hexpiry
  cases h
  have hfree' : ledger.heads[nameId]? = none := by
    refine ExtTreeMap.getElem?_eq_none ?_
    rwa [← ExtTreeMap.contains_iff_mem]
  exact ⟨hid, hfree', by simpa using hschedule, by simpa using hcommit, ⟨commitment, hpending⟩,
    action, epoch, expiry, haction, hepoch, hexpiry, rfl⟩

/-- An accepted REFRESH: it names the producer of the current active head, lies in a later epoch,
and its designated action spends that head's future nullifier. -/
theorem refreshed_eq_ok {op : Refresh}
    (h : ledger.refreshed rules height transaction op = .ok (nameId, head)) :
    op.name.id = .ok nameId ∧ ∃ predecessor, ledger.heads[nameId]? = some predecessor ∧
      predecessor.lifecycle height rules.parameters = .active ∧
      predecessor.producer = op.predecessor ∧
      rules.parameters.acceptsOperation nameId height = true ∧
      ∃ action epoch expiry, transaction.actions[op.actionIndex.val]? = some action ∧
        action.actionIndex = op.actionIndex ∧ action.nullifier = predecessor.futureNf ∧
        rules.parameters.epoch height = .ok epoch ∧ predecessor.producerEpoch < epoch ∧
        rules.parameters.expiry height = .ok expiry ∧
        head = transaction.successor height op.name op.ua op.actionIndex action.commitment
          op.successorFutureNf epoch expiry := by
  unfold refreshed at h
  dsimp only at h
  split at h
  · cases h
  rename_i id hid
  split at h
  · cases h
  rename_i predecessor hpredecessor
  split at h
  · cases h
  rename_i epoch hepoch
  split at h
  · cases h
  rename_i hcurrent
  split at h
  · cases h
  rename_i hlater
  split at h
  · cases h
  rename_i hschedule
  split at h
  · cases h
  rename_i action haction
  split at h
  · cases h
  rename_i hspends
  split at h
  · cases h
  split at h
  · cases h
  rename_i expiry hexpiry
  cases h
  simp only [ne_eq, not_or, not_not] at hcurrent hspends
  exact ⟨hid, predecessor, hpredecessor, hcurrent.1, hcurrent.2, by simpa using hschedule, action,
    epoch, expiry, haction, hspends.1, hspends.2, hepoch, lt_of_not_ge hlater, hexpiry, rfl⟩

end Ledger

end Scan

end CoppiceNames
