import CoppiceNames.Reducer.State

/-!
# Applying and reverting blocks

The state transitions of `reducer.rs`. A method that takes `&mut self` returns the state after it,
also when it fails. The phases of a block run on an `OpenBlock`: the records with the journal of the
block being applied. The source indexes `self.heads[&name_id]` by names it found in an index and
would panic on a stale entry; a panic is `none` here.

`apply_reveal` and `apply_refresh` first decide and then write. The decision is a function of the
authoritative records alone (`Ledger.revealed`, `Ledger.refreshed`).
-/

open Std

namespace CoppiceNames

/-! ### Results -/

/-- `Accepted`. -/
inductive Accepted
  | commit
  | reveal
  | refresh
  deriving DecidableEq, Repr

/-- The clause identifiers of operation decisions. -/
inductive Clause
  | commitAccept
  | revealAccept
  | revealMissing
  | revealSchedule
  | revealCommit
  | revealAction
  | revealProof
  | refreshAccept
  | refreshCurrent
  | refreshSchedule
  | refreshEpoch
  | refreshAction
  | refreshProof
  | blockOrder
  deriving DecidableEq, Repr

/-- The text of a clause identifier. -/
def Clause.text : Clause → String
  | commitAccept => "NAMES.COMMIT.ACCEPT"
  | revealAccept => "NAMES.REVEAL.ACCEPT"
  | revealMissing => "NAMES.REVEAL.MISSING"
  | revealSchedule => "NAMES.REVEAL.SCHEDULE"
  | revealCommit => "NAMES.REVEAL.COMMIT"
  | revealAction => "NAMES.REVEAL.ACTION"
  | revealProof => "NAMES.REVEAL.PROOF"
  | refreshAccept => "NAMES.REFRESH.ACCEPT"
  | refreshCurrent => "NAMES.REFRESH.CURRENT"
  | refreshSchedule => "NAMES.REFRESH.SCHEDULE"
  | refreshEpoch => "NAMES.REFRESH.EPOCH"
  | refreshAction => "NAMES.REFRESH.ACTION"
  | refreshProof => "NAMES.REFRESH.PROOF"
  | blockOrder => "NAMES.BLOCK.ORDER"

/-- `OperationDecision`. -/
structure OperationDecision where
  accepted : Option Accepted
  clauseId : Clause
  deriving DecidableEq, Repr

/-- `Compaction`: a block-start deletion of a terminal head. -/
structure Compaction where
  nameId : NameId
  previousHead : StateRef
  height : U32
  deriving DecidableEq

/-- `Termination`: a current head made terminal by an action spend. -/
structure Termination where
  nameId : NameId
  previousHead : StateRef
  height : U32
  deriving DecidableEq

/-- `CommitChange`. -/
structure CommitChange where
  reference : CommitRef
  previous : Option Commitment
  current : Option Commitment
  deriving DecidableEq

/-- `RollbackError`. -/
inductive RollbackError
  | noAppliedBlock
  | beyondRetention
  | wrongTipHash
  deriving DecidableEq, Repr

/-- `FinalizationError`. -/
inductive FinalizationError
  | beyondTip
  deriving DecidableEq, Repr

section Apply

variable [Primitives]

/-- `HeadChange`. -/
structure HeadChange where
  nameId : NameId
  previous : Option Head
  current : Option Head
  deriving DecidableEq

/-- `StateDelta`: one atomic transition between canonical tips. -/
structure StateDelta where
  fromTip : Option ReducerTip
  toTip : Option ReducerTip
  heads : List HeadChange
  commits : List CommitChange
  deriving DecidableEq

/-- `BlockOutcome`. -/
structure BlockOutcome where
  accepted : List Accepted
  decisions : List OperationDecision
  compacted : List Compaction
  terminated : List Termination
  stateDelta : StateDelta

/-! ### Deciding an operation -/

/-- The authoritative records: what decides every transition. -/
structure Ledger where
  commits : OrderedMap CommitRef Commitment
  heads : OrderedMap NameId Head

/-- The authoritative part of the records. -/
def Records.ledger (records : Records) : Ledger :=
  ⟨records.commits, records.heads⟩

/-- The head an accepted operation installs. -/
def Transaction.successor (transaction : Transaction) (height : U32) (name : Name)
    (ua : CanonicalUa) (actionIndex : U32) (actionCommitment futureNf : FieldElement)
    (epoch expiry : U32) : Head where
  name := name
  ua := ua
  producer := ⟨height, transaction.txIndex, transaction.txid, actionIndex⟩
  commitment := actionCommitment
  futureNf := futureNf
  producerEpoch := epoch
  expiryHeight := expiry
  terminalHeight := none

namespace Ledger

variable (ledger : Ledger) (rules : Rules) (height : U32) (transaction : Transaction)

/-- The checks of `apply_reveal`, in its order, and the head it would install. -/
def revealed (op : Reveal) : Except Clause (NameId × Head) :=
  let parameters := rules.parameters
  match op.name.id with
  | .error _ => .error .revealMissing
  | .ok nameId =>
    if ledger.heads.contains nameId then .error .revealMissing
    else if parameters.acceptsOperation nameId height = false then .error .revealSchedule
    else if parameters.acceptsCommit op.commit.height height = false then .error .revealCommit
    else
      match ledger.commits[op.commit]? with
      | none => .error .revealCommit
      | some commitment =>
        match transaction.actions[op.actionIndex.val]? with
        | none => .error .revealAction
        | some action =>
          if action.actionIndex ≠ op.actionIndex then .error .revealAction
          else
            match parameters.epoch height with
            | .error _ => .error .revealSchedule
            | .ok epoch =>
              let statement : RevealStatement :=
                { deploymentId := parameters.deploymentId
                  nameId := nameId
                  inclusionEpoch := epoch
                  commitment := commitment
                  commitRef := op.commit
                  ua := op.ua
                  actionIndex := op.actionIndex
                  actionNullifier := action.nullifier
                  actionCommitment := action.commitment
                  successorFutureNf := op.successorFutureNf }
              if rules.verifier.verifyReveal statement op.proof = false then .error .revealProof
              else
                match parameters.expiry height with
                | .error _ => .error .revealSchedule
                | .ok expiry => .ok (nameId, transaction.successor height op.name op.ua
                    op.actionIndex action.commitment op.successorFutureNf epoch expiry)

/-- The checks of `apply_refresh`, in its order, and the head it would install. -/
def refreshed (op : Refresh) : Except Clause (NameId × Head) :=
  let parameters := rules.parameters
  match op.name.id with
  | .error _ => .error .refreshCurrent
  | .ok nameId =>
    match ledger.heads[nameId]? with
    | none => .error .refreshCurrent
    | some predecessor =>
      match parameters.epoch height with
      | .error _ => .error .refreshSchedule
      | .ok epoch =>
        if predecessor.lifecycle height parameters ≠ .active ∨
            predecessor.producer ≠ op.predecessor then .error .refreshCurrent
        else if predecessor.producerEpoch ≥ epoch then .error .refreshEpoch
        else if parameters.acceptsOperation nameId height = false then .error .refreshSchedule
        else
          match transaction.actions[op.actionIndex.val]? with
          | none => .error .refreshAction
          | some action =>
            if action.actionIndex ≠ op.actionIndex ∨ action.nullifier ≠ predecessor.futureNf then
              .error .refreshAction
            else
              let statement : RefreshStatement :=
                { deploymentId := parameters.deploymentId
                  nameId := nameId
                  predecessorRef := op.predecessor
                  predecessorCommitment := predecessor.commitment
                  predecessorFutureNf := predecessor.futureNf
                  predecessorEpoch := predecessor.producerEpoch
                  inclusionEpoch := epoch
                  ua := op.ua
                  actionIndex := op.actionIndex
                  actionNullifier := action.nullifier
                  actionCommitment := action.commitment
                  successorFutureNf := op.successorFutureNf }
              if rules.verifier.verifyRefresh statement op.proof = false then .error .refreshProof
              else
                match parameters.expiry height with
                | .error _ => .error .refreshSchedule
                | .ok expiry => .ok (nameId, transaction.successor height op.name op.ua
                    op.actionIndex action.commitment op.successorFutureNf epoch expiry)

end Ledger

/-! ### The phases of a block -/

/-- The records inside a block, with the journal of that block. -/
structure OpenBlock where
  records : Records
  journal : Journal

namespace OpenBlock

/-- Remember a head, then replace it. -/
def writeHead (o : OpenBlock) (nameId : NameId) (head : Option Head) : OpenBlock :=
  ⟨o.records.replaceHead nameId head, o.records.rememberHead o.journal nameId⟩

/-- Remember a COMMIT, then replace it. -/
def writeCommit (o : OpenBlock) (reference : CommitRef) (commitment : Option Commitment) :
    OpenBlock :=
  ⟨o.records.replaceCommit reference commitment, o.records.rememberCommit o.journal reference⟩

/-- One step of `mark_expired`: the head becomes terminal at the end of its lease. -/
def expireHead (o : OpenBlock) (nameId : NameId) : OpenBlock :=
  match o.records.heads[nameId]? with
  | some head => o.writeHead nameId (some { head with terminalHeight := some head.expiryHeight })
  | none => ⟨o.records, o.records.rememberHead o.journal nameId⟩

/-- `mark_expired`, over the leases that ended at or before this height. -/
def markExpired (o : OpenBlock) (height : U32) : OpenBlock :=
  (o.records.activeHeadsByExpiry.upTo height).foldl expireHead o

/-- `compact_claimable`: heads whose cooldown is over are deleted. -/
def compactClaimable (o : OpenBlock) (parameters : Parameters) (height : U32) :
    Option (List Compaction × OpenBlock) :=
  match U32.checkedSub height parameters.cooldownBlocks with
  | none => some ([], o)
  | some lastClaimableTerminal => do
    let claimable ← (o.records.terminalHeadsByHeight.upTo lastClaimableTerminal).mapM
      fun nameId ↦ o.records.heads[nameId]?.map fun head ↦ (nameId, head.producer)
    let o := claimable.foldl (fun o entry ↦ o.writeHead entry.1 none) o
    return (claimable.map fun entry ↦ ⟨entry.1, entry.2, height⟩, o)

/-- `prune_commits`: COMMITs at the end of their lifetime are deleted. -/
def pruneCommits (o : OpenBlock) (parameters : Parameters) (height : U32) : OpenBlock :=
  match U32.checkedSub height parameters.commitTtlBlocks with
  | none => o
  | some lastExpiredHeight =>
    (o.records.commitsByHeight.upTo lastExpiredHeight).foldl
      (fun o reference ↦ o.writeCommit reference none) o

/-- The evidence of a block becomes pending COMMITs. -/
def addEvidence (o : OpenBlock) (supplied : OrderedMap CommitRef Commitment) : OpenBlock :=
  supplied.toList.foldl (fun o entry ↦ o.writeCommit entry.1 (some entry.2)) o

/-- The heads whose future nullifier an action spends, in name order, with their producers. -/
def spent (o : OpenBlock) (transaction : Transaction) : Option (List (NameId × StateRef)) :=
  let nameIds := transaction.actions.flatMap fun action ↦
    (o.records.headsByFutureNf.bucket action.nullifier.bytes).toList
  (ExtTreeSet.ofList nameIds compare).toList.mapM fun nameId ↦
    o.records.heads[nameId]?.map fun head ↦ (nameId, head.producer)

/-- The operation step of `apply_transaction_detailed`, with `apply_reveal` and `apply_refresh`. -/
def applyOperation (o : OpenBlock) (rules : Rules) (height : U32) (transaction : Transaction) :
    OperationDecision × OpenBlock :=
  match transaction.operation with
  | some (.commit commitment) =>
    let reference : CommitRef := ⟨height, transaction.txIndex, transaction.txid⟩
    (⟨some .commit, .commitAccept⟩, o.writeCommit reference (some commitment))
  | some (.reveal op) =>
    match o.records.ledger.revealed rules height transaction op with
    | .ok (nameId, head) => (⟨some .reveal, .revealAccept⟩, o.writeHead nameId (some head))
    | .error clause => (⟨none, clause⟩, o)
  | some (.refresh op) =>
    match o.records.ledger.refreshed rules height transaction op with
    | .ok (nameId, head) => (⟨some .refresh, .refreshAccept⟩, o.writeHead nameId (some head))
    | .error clause => (⟨none, clause⟩, o)
  | none => (⟨none, .blockOrder⟩, o)

/-- One step of the spend loop: a head that is still the spent one is journaled, and terminated
unless it is terminal already. -/
def spend (height : U32) (state : List Termination × OpenBlock) (entry : NameId × StateRef) :
    List Termination × OpenBlock :=
  let (terminated, o) := state
  let (nameId, spentProducer) := entry
  match o.records.heads[nameId]? with
  | none => state
  | some head =>
    if head.producer ≠ spentProducer then state
    else
      match head.terminalHeight with
      | some _ => (terminated, ⟨o.records, o.records.rememberHead o.journal nameId⟩)
      | none =>
        (terminated ++ [⟨nameId, spentProducer, height⟩],
          o.writeHead nameId (some { head with terminalHeight := some height }))

/-- `apply_transaction_detailed`. -/
def applyTransactionDetailed (o : OpenBlock) (rules : Rules) (height : U32)
    (transaction : Transaction) (terminated : List Termination) :
    Option (OperationDecision × List Termination × OpenBlock) := do
  let spent ← o.spent transaction
  let (decision, o) := o.applyOperation rules height transaction
  return (decision, spent.foldl (spend height) (terminated, o))

/-- One step of the transaction loop of `apply_block_detailed`. -/
def applyNext (rules : Rules) (height : U32)
    (state : List OperationDecision × List Termination × OpenBlock) (transaction : Transaction) :
    Option (List OperationDecision × List Termination × OpenBlock) := do
  let (decisions, terminated, o) := state
  let (decision, terminated, o) ← o.applyTransactionDetailed rules height transaction terminated
  return (decisions ++ [decision], terminated, o)

/-- The transaction loop of `apply_block_detailed`, with its decisions and terminations. -/
def applyTransactions (o : OpenBlock) (rules : Rules) (height : U32)
    (transactions : List Transaction) :
    Option (List OperationDecision × List Termination × OpenBlock) :=
  transactions.foldlM (applyNext rules height) ([], [], o)

end OpenBlock

/-! ### Admission of a block -/

/-- Action indices count from zero. -/
def canonicalActions (actions : List Action) : Bool :=
  actions.zipIdx.all fun (action, i) ↦ action.actionIndex == (U32.ofUsize i).getD U32.MAX

/-- The loop over transaction and action indices. -/
def checkTransactions (previous : Option U32) : List Transaction → Except ApplyError Unit
  | [] => .ok ()
  | transaction :: rest =>
    if previous.any fun index ↦ transaction.txIndex ≤ index then
      .error .nonCanonicalTransactionIndex
    else if canonicalActions transaction.actions = false then .error .nonCanonicalActionIndex
    else checkTransactions (some transaction.txIndex) rest

/-- The COMMIT references of a block's REVEALs. -/
def Block.revealReferences (block : Block) : List CommitRef :=
  block.transactions.filterMap fun transaction ↦
    match transaction.operation with
    | some (.reveal op) => some op.commit
    | _ => none

/-- The loop over the evidence: every piece is referenced and in range, and agrees with the others
and with the pending COMMITs. -/
def supply (parameters : Parameters) (commits : OrderedMap CommitRef Commitment) (block : Block)
    (supplied : OrderedMap CommitRef Commitment) :
    List ReferencedCommit → Except ApplyError (OrderedMap CommitRef Commitment)
  | [] => .ok supplied
  | evidence :: rest =>
    let reference := evidence.reference
    if reference ∉ block.revealReferences ∨ reference.height < parameters.activationHeight ∨
        reference.height ≥ block.height ∨
        block.height - reference.height ≥ parameters.commitTtlBlocks then
      .error .invalidReferencedCommit
    else if (supplied[reference]?).any (· ≠ evidence.commitment) ∨
        (commits[reference]?).any (· ≠ evidence.commitment) then
      .error .conflictingReferencedCommit
    else supply parameters commits block (supplied.insert reference evidence.commitment) rest

/-- The checks of `apply_block_detailed`, which come before any change; the result is the evidence
it admits. -/
def admission (parameters : Parameters) (nextHeight : Option U32) (previousHash : Bytes32)
    (commits : OrderedMap CommitRef Commitment) (block : Block) (evidence : List ReferencedCommit) :
    Except ApplyError (OrderedMap CommitRef Commitment) :=
  if some block.height ≠ nextHeight then .error .wrongHeight
  else if block.prevHash ≠ previousHash then .error .wrongPreviousHash
  else
    match checkTransactions none block.transactions with
    | .error e => .error e
    | .ok () => supply parameters commits block ∅ evidence

namespace Reducer

variable (reducer : Reducer)

/-- `new_undo`. -/
def newUndo (height : U32) (hash : Bytes32) : Undo where
  height := height
  hash := hash
  previousHash := reducer.previousHash
  previousNextHeight := reducer.nextHeight
  previousTipHeight := reducer.tipHeight
  commits := ∅
  heads := ∅

/-- The records and the empty journal at the start of a block. -/
def openBlock : OpenBlock :=
  ⟨reducer.toRecords, ⟨∅, ∅⟩⟩

/-- The block-start phases and the evidence: everything before the transactions. -/
def startBlock (height : U32) (supplied : OrderedMap CommitRef Commitment) :
    Option (List Compaction × OpenBlock) := do
  let o := reducer.openBlock.markExpired height
  let (compacted, o) ← o.compactClaimable reducer.rules.parameters height
  let o := o.pruneCommits reducer.rules.parameters height
  return (compacted, o.addEvidence supplied)

/-- `delta_from_undo`. -/
def deltaFromUndo (fromTip toTip : Option ReducerTip) (journal : Journal) : StateDelta where
  fromTip := fromTip
  toTip := toTip
  commits := journal.commits.toList.map fun (reference, previous) ↦
    ⟨reference, previous, reducer.commits[reference]?⟩
  heads := journal.heads.toList.map fun (nameId, previous) ↦
    ⟨nameId, previous, reducer.heads[nameId]?⟩

/-- The reducer after the last transaction of a block: the new tip, and the block's journal. -/
def closeBlock (block : Block) (o : OpenBlock) : Reducer :=
  { o.records with
    rules := reducer.rules
    nextHeight := U32.checkedAdd block.height 1
    tipHeight := some block.height
    previousHash := block.hash
    history := reducer.history ++
      [{ reducer.newUndo block.height block.hash with toJournal := o.journal }] }

/-- `apply_block_detailed`. -/
def applyBlockDetailed (block : Block) (referencedCommits : List ReferencedCommit) :
    Option (Except ApplyError BlockOutcome × Reducer) :=
  match admission reducer.rules.parameters reducer.nextHeight reducer.previousHash
      reducer.commits block referencedCommits with
  | .error e => some (.error e, reducer)
  | .ok supplied => do
    let fromTip := reducer.tip
    let (compacted, o) ← reducer.startBlock block.height supplied
    let (decisions, terminated, o) ←
      o.applyTransactions reducer.rules block.height block.transactions
    let applied := reducer.closeBlock block o
    return (.ok
      { accepted := decisions.filterMap OperationDecision.accepted
        decisions := decisions
        compacted := compacted
        terminated := terminated
        stateDelta := applied.deltaFromUndo fromTip applied.tip o.journal }, applied)

/-- `apply_block`. -/
def applyBlock (block : Block) : Option (Except ApplyError (List Accepted) × Reducer) :=
  (reducer.applyBlockDetailed block []).map fun (result, reducer) ↦
    (result.map BlockOutcome.accepted, reducer)

/-! ### Rollback and finalization -/

/-- The records after every journaled value is put back. -/
def revert (records : Records) (journal : Journal) : Records :=
  let records := journal.commits.toList.foldl
    (fun records entry ↦ records.replaceCommit entry.1 entry.2) records
  journal.heads.toList.foldl (fun records entry ↦ records.replaceHead entry.1 entry.2) records

/-- `rollback_tip_detailed`. -/
def rollbackTipDetailed (expectedHash : Bytes32) : Except RollbackError StateDelta × Reducer :=
  match reducer.history.getLast? with
  | none =>
    (.error (if reducer.tipHeight.isSome then .beyondRetention else .noAppliedBlock), reducer)
  | some undo =>
    if undo.hash ≠ expectedHash ∨ reducer.previousHash ≠ expectedHash then
      (.error .wrongTipHash, reducer)
    else
      let reverted : Reducer :=
        { revert reducer.toRecords undo.toJournal with
          rules := reducer.rules
          nextHeight := undo.previousNextHeight
          tipHeight := undo.previousTipHeight
          previousHash := undo.previousHash
          history := reducer.history.dropLast }
      (.ok
        { fromTip := reducer.tip
          toTip := reverted.tip
          commits := undo.commits.keys.map fun reference ↦
            ⟨reference, reducer.commits[reference]?, reverted.commits[reference]?⟩
          heads := undo.heads.keys.map fun nameId ↦
            ⟨nameId, reducer.heads[nameId]?, reverted.heads[nameId]?⟩ }, reverted)

/-- `finalize_through`. -/
def finalizeThrough (height : U32) : Except FinalizationError Unit × Reducer :=
  if reducer.tipHeight.all fun tip ↦ height > tip then (.error .beyondTip, reducer)
  else (.ok (), { reducer with history := reducer.history.dropWhile (·.height ≤ height) })

end Reducer

end Apply

end CoppiceNames
