import CoppiceNames.Reducer.Renewal
import CoppiceNames.Wallet.Preparation

/-!
# Prepared operations are accepted

A wallet and a reducer state the facts of a REVEAL or REFRESH independently of each other: the
wallet from its seed, the deployment and the notes it holds, before the operation is mined; the
reducer from the operation, the transaction that carries it and its own records. The facts are the
same field by field, and the gates of the reducer are gates the wallet passed.
-/

open Std

namespace CoppiceNames

/-! ### The statement of a reducer -/

section Rebuilt

variable [Primitives]

namespace Ledger

variable (ledger : Ledger) (parameters : Parameters) (height : U32) (transaction : Transaction)

/-- The statement that `apply_reveal` rebuilds. -/
def revealStatement (op : Reveal) : Option RevealStatement := do
  let nameId ← op.name.id.toOption
  let commitment ← ledger.commits[op.commit]?
  let action ← transaction.actions[op.actionIndex.val]?
  let epoch ← (parameters.epoch height).toOption
  return {
    deploymentId := parameters.deploymentId
    nameId
    inclusionEpoch := epoch
    commitment
    commitRef := op.commit
    ua := op.ua
    actionIndex := op.actionIndex
    actionNullifier := action.nullifier
    actionCommitment := action.commitment
    successorFutureNf := op.successorFutureNf }

/-- The statement that `apply_refresh` rebuilds. -/
def refreshStatement (op : Refresh) : Option RefreshStatement := do
  let nameId ← op.name.id.toOption
  let predecessor ← ledger.heads[nameId]?
  let action ← transaction.actions[op.actionIndex.val]?
  let epoch ← (parameters.epoch height).toOption
  return {
    deploymentId := parameters.deploymentId
    nameId
    predecessorRef := op.predecessor
    predecessorCommitment := predecessor.commitment
    predecessorFutureNf := predecessor.futureNf
    predecessorEpoch := predecessor.producerEpoch
    inclusionEpoch := epoch
    ua := op.ua
    actionIndex := op.actionIndex
    actionNullifier := action.nullifier
    actionCommitment := action.commitment
    successorFutureNf := op.successorFutureNf }

variable {ledger} {rules : Rules} {height} {transaction} {nameId : NameId}

theorem revealStatement_eq {parameters : Parameters} {op : Reveal} {commitment : Commitment}
    {action : Action} {epoch : U32} (hname : op.name.id = .ok nameId)
    (hcommit : ledger.commits[op.commit]? = some commitment)
    (haction : transaction.actions[op.actionIndex.val]? = some action)
    (hepoch : parameters.epoch height = .ok epoch) :
    ledger.revealStatement parameters height transaction op = some
      { deploymentId := parameters.deploymentId
        nameId := nameId
        inclusionEpoch := epoch
        commitment := commitment
        commitRef := op.commit
        ua := op.ua
        actionIndex := op.actionIndex
        actionNullifier := action.nullifier
        actionCommitment := action.commitment
        successorFutureNf := op.successorFutureNf } := by
  simp only [revealStatement, hname, Except.toOption, hcommit, haction, hepoch, Option.bind_eq_bind,
    Option.bind_some, Option.pure_def]

theorem refreshStatement_eq {parameters : Parameters} {op : Refresh} {predecessor : Head}
    {action : Action} {epoch : U32} (hname : op.name.id = .ok nameId)
    (hhead : ledger.heads[nameId]? = some predecessor)
    (haction : transaction.actions[op.actionIndex.val]? = some action)
    (hepoch : parameters.epoch height = .ok epoch) :
    ledger.refreshStatement parameters height transaction op = some
      { deploymentId := parameters.deploymentId
        nameId := nameId
        predecessorRef := op.predecessor
        predecessorCommitment := predecessor.commitment
        predecessorFutureNf := predecessor.futureNf
        predecessorEpoch := predecessor.producerEpoch
        inclusionEpoch := epoch
        ua := op.ua
        actionIndex := op.actionIndex
        actionNullifier := action.nullifier
        actionCommitment := action.commitment
        successorFutureNf := op.successorFutureNf } := by
  simp only [refreshStatement, hname, Except.toOption, hhead, haction, hepoch, Option.bind_eq_bind,
    Option.bind_some, Option.pure_def]

/-- **What a REVEAL needs.** -/
theorem revealed_of_checks {op : Reveal} {statement : RevealStatement} {action : Action}
    {epoch expiry : U32} (hname : op.name.id = .ok nameId) (hfree : ledger.heads[nameId]? = none)
    (haccepts : rules.parameters.acceptsOperation nameId height = true)
    (hmature : rules.parameters.acceptsCommit op.commit.height height = true)
    (haction : transaction.actions[op.actionIndex.val]? = some action)
    (hindex : action.actionIndex = op.actionIndex)
    (hepoch : rules.parameters.epoch height = .ok epoch)
    (hstatement : ledger.revealStatement rules.parameters height transaction op = some statement)
    (hproof : rules.verifier.verifyReveal statement op.proof = true)
    (hexpiry : rules.parameters.expiry height = .ok expiry) :
    ledger.revealed rules height transaction op = .ok (nameId, transaction.successor height op.name
      op.ua op.actionIndex action.commitment op.successorFutureNf epoch expiry) := by
  have hcontains : ledger.heads.contains nameId = false := by
    rw [ExtTreeMap.contains_eq_isSome_getElem?, hfree]
    rfl
  rcases hcommit : ledger.commits[op.commit]? with - | commitment
  · simp [revealStatement, hname, Except.toOption, hcommit] at hstatement
  rw [revealStatement_eq hname hcommit haction hepoch, Option.some_inj] at hstatement
  rw [← hstatement] at hproof
  rw [revealed.eq_def]
  dsimp only
  rw [hname]
  dsimp only
  rw [if_neg (by simp [hcontains]), if_neg (by simp [haccepts]),
    if_neg (by simp [hmature]), hcommit]
  dsimp only
  rw [haction]
  dsimp only
  rw [if_neg (not_not.2 hindex), hepoch]
  dsimp only
  rw [if_neg (by simp [hproof]), hexpiry]

end Ledger

end Rebuilt

/-! ### What a wallet prepared -/

section Steps

variable [Core]

theorem PreparationError.ensure_eq_ok_iff {holds : Bool} {text : String} {result : Unit} :
    PreparationError.ensure holds text = .ok result ↔ holds = true := by
  rw [PreparationError.ensure]
  split
  · rename_i h
    simp [h]
  · rename_i h
    simp [h]

theorem during_eq_ok_iff {ε α : Type} {step : String} {cause : ε → PreparationCause}
    {result : Except ε α} {a : α} : during step cause result = .ok a ↔ result = .ok a :=
  Except.mapError_eq_ok_iff

theorem operation_of_preparePublication [Primitives] {operation : Operation}
    {deployment : DeploymentParameters} {publication : PreparedPublication}
    (h : preparePublication operation deployment = .ok publication) :
    publication.operation = operation := by
  obtain ⟨id, hunder⟩ := exists_preparedUnder h
  exact hunder.same

end Steps

section Prepared

variable [Primitives] [Core] [KeyedHash] [Orchard] [Circuits]

omit [Circuits] in
/-- A prepared COMMIT commits to the opening of its epoch. -/
theorem prepareCommit_eq_ok {walletSeed : List UInt8} {deployment : DeploymentParameters}
    {name : Name} {revealHeight : U32} {commit : PreparedCommit} {deploymentId : Bytes32}
    (hid : deployment.deploymentId = .ok deploymentId)
    (h : prepareCommit walletSeed deployment name revealHeight = .ok commit) :
    ∃ epoch spendingKey opening,
      (deployment.schedule deploymentId).epoch revealHeight = .ok epoch ∧
      (deriveNameSpendingKey walletSeed deploymentId name).result = .ok spendingKey ∧
      (deriveCommitOpening spendingKey deploymentId name epoch).result = .ok opening ∧
      commit.publication.operation = .commit opening.commitment := by
  simp only [prepareCommit, Except.bind_eq_ok_iff, during_eq_ok_iff,
    PreparationError.ensure_eq_ok_iff] at h
  obtain ⟨validated, hvalidate, id, hid', nameId, -, -, -, epoch, hepoch,
    spendingKey, hkey, opening,
    hopening, publication, hpublication, hcommit⟩ := h
  obtain ⟨rfl, -, -⟩ := DeploymentParameters.validate_eq_ok hvalidate
  obtain rfl : id = deploymentId := Except.ok.inj (hid'.symm.trans hid)
  obtain rfl := Except.ok.inj hcommit
  exact ⟨epoch, spendingKey, opening, hepoch, hkey, hopening,
    operation_of_preparePublication hpublication⟩

/-- What stands behind a prepared REVEAL. -/
structure RevealInputs.Prepares (inputs : RevealInputs) (deploymentId : Bytes32) (nameId : NameId)
    (epoch : U32) (spendingKey : SpendingKey) (opening : CommitOpening) (rng : Circuits.Rng)
    (proof : List UInt8) (prepared : PreparedReveal) : Prop where
  name : inputs.name.id = .ok nameId
  accepts : (inputs.deployment.schedule deploymentId).acceptsOperation nameId
    inputs.operationHeight = true
  mature : (inputs.deployment.schedule deploymentId).acceptsCommit inputs.commitRef.height
    inputs.operationHeight = true
  epoch_eq : (inputs.deployment.schedule deploymentId).epoch inputs.operationHeight = .ok epoch
  key : (deriveNameSpendingKey inputs.walletSeed deploymentId inputs.name).result = .ok spendingKey
  opens : (deriveCommitOpening spendingKey deploymentId inputs.name epoch).result = .ok opening
  witnessed : prepared.statement.Witnessed prepared.successorNote spendingKey opening.secret
  proves : proveReveal prepared.statement prepared.successorNote spendingKey opening.secret rng =
    .ok proof
  operation : prepared.publication.operation = .reveal
    { name := inputs.name
      commit := inputs.commitRef
      ua := inputs.ua
      actionIndex := inputs.designatedActionIndex
      successorFutureNf := prepared.statement.successorFutureNf
      proof }
  statement : prepared.statement =
    { deploymentId
      nameId
      inclusionEpoch := epoch
      commitment := opening.commitment
      commitRef := inputs.commitRef
      ua := inputs.ua
      actionIndex := inputs.designatedActionIndex
      actionNullifier := prepared.statement.actionNullifier
      actionCommitment := prepared.statement.actionCommitment
      successorFutureNf := prepared.statement.successorFutureNf }

theorem prepareReveal_eq_ok {inputs : RevealInputs} {rng : Circuits.Rng} {prepared : PreparedReveal}
    {deploymentId : Bytes32} (hid : inputs.deployment.deploymentId = .ok deploymentId)
    (h : prepareReveal inputs rng = .ok prepared) :
    ∃ nameId epoch spendingKey opening proof,
      inputs.Prepares deploymentId nameId epoch spendingKey opening rng proof prepared := by
  simp only [prepareReveal, Except.bind_eq_ok_iff, during_eq_ok_iff,
    PreparationError.ensure_eq_ok_iff] at h
  obtain ⟨validated, hvalidate, id, hid', nameId, hname, -, haccepts, -,
    hmature, -, -, epoch, hepoch,
    spendingKey, hkey, opening, hopening, actionNullifier, -, successorNote, hnote,
    actionCommitment, hcommitment, successorFutureNf, hfuture, proof, hproof, publication,
    hpublication, -, -, hprepared⟩ := h
  obtain ⟨rfl, -, -⟩ := DeploymentParameters.validate_eq_ok hvalidate
  obtain rfl : id = deploymentId := Except.ok.inj (hid'.symm.trans hid)
  obtain rfl := Except.ok.inj hprepared
  obtain ⟨hnonzero, nameId', owner, hname', howner, hopens⟩ := deriveCommitOpening_opens hopening
  obtain rfl : nameId' = nameId := Except.ok.inj (hname'.symm.trans hname)
  exact ⟨nameId', epoch, spendingKey, opening, proof, hname, haccepts, hmature, hepoch, hkey,
    hopening, ⟨hnonzero, ⟨owner, howner, hopens⟩, isBondNote_of_deriveBondNote hnote,
      (FieldElement.fromBytes_eq_ok hcommitment).symm, (FieldElement.fromBytes_eq_ok hfuture).symm⟩,
    hproof, operation_of_preparePublication hpublication, rfl⟩

/-- What stands behind a prepared REFRESH. -/
structure RefreshInputs.Prepares (inputs : RefreshInputs) (deploymentId : Bytes32) (nameId : NameId)
    (epoch : U32) (spendingKey : SpendingKey) (rng : Circuits.Rng) (proof : List UInt8)
    (prepared : PreparedRefresh) : Prop where
  name : inputs.name.id = .ok nameId
  active : inputs.predecessor.lifecycle inputs.operationHeight
    (inputs.deployment.schedule deploymentId) = .active
  accepts : (inputs.deployment.schedule deploymentId).acceptsOperation nameId
    inputs.operationHeight = true
  epoch_eq : (inputs.deployment.schedule deploymentId).epoch inputs.operationHeight = .ok epoch
  later : inputs.predecessor.producerEpoch < epoch
  witnessed : prepared.statement.Witnessed inputs.predecessorNote prepared.successorNote spendingKey
  proves : proveRefresh prepared.statement inputs.predecessorNote prepared.successorNote spendingKey
    rng = .ok proof
  operation : prepared.publication.operation = .refresh
    { name := inputs.name
      predecessor := inputs.predecessor.producer
      ua := inputs.ua
      actionIndex := inputs.designatedActionIndex
      successorFutureNf := prepared.statement.successorFutureNf
      proof }
  statement : prepared.statement =
    { deploymentId
      nameId
      predecessorRef := inputs.predecessor.producer
      predecessorCommitment := inputs.predecessor.commitment
      predecessorFutureNf := inputs.predecessor.futureNf
      predecessorEpoch := inputs.predecessor.producerEpoch
      inclusionEpoch := epoch
      ua := inputs.ua
      actionIndex := inputs.designatedActionIndex
      actionNullifier := inputs.predecessor.futureNf
      actionCommitment := prepared.statement.actionCommitment
      successorFutureNf := prepared.statement.successorFutureNf }

theorem prepareRefresh_eq_ok {inputs : RefreshInputs} {rng : Circuits.Rng}
    {prepared : PreparedRefresh} {deploymentId : Bytes32}
    (hid : inputs.deployment.deploymentId = .ok deploymentId)
    (h : prepareRefresh inputs rng = .ok prepared) :
    ∃ nameId epoch spendingKey proof,
      inputs.Prepares deploymentId nameId epoch spendingKey rng proof prepared := by
  simp only [prepareRefresh, Except.bind_eq_ok_iff, during_eq_ok_iff,
    PreparationError.ensure_eq_ok_iff,
    decide_eq_true_eq] at h
  obtain ⟨validated, hvalidate, id, hid', nameId, hname, -, -, -, hactive, -,
    haccepts, epoch, hepoch,
    -, hlater, -, hvalue, spendingKey, -, predecessorCommitment, holdCommitment,
    predecessorFutureNf, holdNf, -, hmatches, successorNote, hnote, actionCommitment, hcommitment,
    successorFutureNf, hfuture, proof, hproof, publication, hpublication, -, -, hprepared⟩ := h
  obtain ⟨rfl, -, -⟩ := DeploymentParameters.validate_eq_ok hvalidate
  obtain rfl : id = deploymentId := Except.ok.inj (hid'.symm.trans hid)
  obtain ⟨rfl, rfl⟩ := hmatches
  obtain rfl := Except.ok.inj hprepared
  exact ⟨nameId, epoch, spendingKey, proof, hname, hactive, haccepts, hepoch, hlater,
    ⟨hvalue, (FieldElement.fromBytes_eq_ok holdCommitment).symm,
      (FieldElement.fromBytes_eq_ok holdNf).symm, rfl, isBondNote_of_deriveBondNote hnote,
      (FieldElement.fromBytes_eq_ok hcommitment).symm, (FieldElement.fromBytes_eq_ok hfuture).symm⟩,
    hproof, operation_of_preparePublication hpublication, rfl⟩

end Prepared

/-! ### What a reducer decides -/

namespace InsideBlock

variable [Primitives] {reducer : Reducer} {block : Block} {evidence : List ReferencedCommit}
  {before after : List Transaction} {transaction : Transaction} {terminated : List Termination}
  {o : OpenBlock}

/-- The action at a position carries its index, by the admission of the block. -/
theorem actionIndex_eq (h : InsideBlock reducer block evidence before terminated o)
    (hblock : block.transactions = before ++ transaction :: after) {index : U32} {action : Action}
    (haction : transaction.actions[index.val]? = some action) : action.actionIndex = index := by
  obtain ⟨supplied, compacted, started, decisions, hadmission, -, -⟩ := h
  obtain ⟨-, -, hcheck, -⟩ := admission_eq_ok hadmission
  rw [hblock] at hcheck
  exact actionIndex_of_canonicalActions (canonicalActions_of_checkTransactions hcheck) haction

theorem accepts_reveal (h : InsideBlock reducer block evidence before terminated o)
    (hindexed : reducer.toRecords.Indexed) {op : Reveal} {result : NameId × Head}
    (hop : transaction.operation = some (.reveal op))
    (hrevealed : o.records.ledger.revealed reducer.rules block.height transaction op = .ok result) :
    ∃ terminated' o', o.applyTransactionDetailed reducer.rules block.height transaction terminated =
      some (⟨some .reveal, .revealAccept⟩, terminated', o') := by
  obtain ⟨-, -, -, hstep⟩ := h.ledger_eq hindexed
  obtain ⟨terminated', o', hdetailed, -⟩ := hstep transaction
  have hdecision : (o.records.ledger.applyTransaction reducer.rules block.height transaction).1 =
      ⟨some .reveal, .revealAccept⟩ := by
    rw [Ledger.applyTransaction, Ledger.applyOperation, hop]
    dsimp only
    rw [hrevealed]
  exact ⟨terminated', o', by rw [hdetailed, hdecision]⟩

theorem accepts_refresh (h : InsideBlock reducer block evidence before terminated o)
    (hindexed : reducer.toRecords.Indexed) {op : Refresh} {result : NameId × Head}
    (hop : transaction.operation = some (.refresh op))
    (hrefreshed : o.records.ledger.refreshed reducer.rules block.height transaction op =
      .ok result) :
    ∃ terminated' o', o.applyTransactionDetailed reducer.rules block.height transaction terminated =
      some (⟨some .refresh, .refreshAccept⟩, terminated', o') := by
  obtain ⟨-, -, -, hstep⟩ := h.ledger_eq hindexed
  obtain ⟨terminated', o', hdetailed, -⟩ := hstep transaction
  have hdecision : (o.records.ledger.applyTransaction reducer.rules block.height transaction).1 =
      ⟨some .refresh, .refreshAccept⟩ := by
    rw [Ledger.applyTransaction, Ledger.applyOperation, hop]
    dsimp only
    rw [hrefreshed]
  exact ⟨terminated', o', by rw [hdetailed, hdecision]⟩

end InsideBlock

section Acceptance

variable [Primitives] [Core] [KeyedHash] [Orchard] [Circuits]

/-- **Prepared operations are accepted.** Inside a block of a reachable reducer of the deployment,
at the height an operation was prepared for, the reducer rebuilds the statement that the wallet
proved and accepts the operation. For a REVEAL, the COMMIT behind the reference is the one prepared
for the same epoch, and the name is free; for a REFRESH, the predecessor is the current head. -/
theorem prepared_operations_accepted (hcomplete : ProofsComplete)
    {deployment : DeploymentParameters} {deploymentId : Bytes32}
    (hid : deployment.deploymentId = .ok deploymentId) {parent : Bytes32} {reducer : Reducer}
    (hreached : FromNew (deployment.schedule deploymentId) parent orchardProofVerifier reducer)
    {block : Block} {evidence : List ReferencedCommit} {before after : List Transaction}
    {transaction : Transaction} {terminated : List Termination} {o : OpenBlock}
    (hinside : InsideBlock reducer block evidence before terminated o)
    (hblock : block.transactions = before ++ transaction :: after)
    (hlease : block.height.val + deployment.leaseBlocks.val ≤ 2 ^ 32 - 1) :
    (∀ (inputs : RevealInputs) (rng : Circuits.Rng) (commitHeight : U32) (commit : PreparedCommit)
        (prepared : PreparedReveal) (action : Action),
      inputs.deployment = deployment → inputs.operationHeight = block.height →
      prepareCommit inputs.walletSeed deployment inputs.name commitHeight = .ok commit →
      (deployment.schedule deploymentId).epoch commitHeight =
        (deployment.schedule deploymentId).epoch block.height →
      (∀ commitment, commit.publication.operation = .commit commitment →
        o.records.commits[inputs.commitRef]? = some commitment) →
      prepareReveal inputs rng = .ok prepared →
      (∀ nameId, inputs.name.id = .ok nameId → o.records.heads[nameId]? = none) →
      transaction.operation = some prepared.publication.operation →
      transaction.actions[inputs.designatedActionIndex.val]? = some action →
      action.nullifier = prepared.statement.actionNullifier →
      action.commitment = prepared.statement.actionCommitment →
      ∃ op terminated' o', prepared.publication.operation = .reveal op ∧
        o.records.ledger.revealStatement reducer.rules.parameters block.height transaction op =
          some prepared.statement ∧
        o.applyTransactionDetailed reducer.rules block.height transaction terminated =
          some (⟨some .reveal, .revealAccept⟩, terminated', o')) ∧
    ∀ (inputs : RefreshInputs) (rng : Circuits.Rng) (prepared : PreparedRefresh) (action : Action),
      inputs.deployment = deployment → inputs.operationHeight = block.height →
      prepareRefresh inputs rng = .ok prepared →
      (∀ nameId, inputs.name.id = .ok nameId →
        o.records.heads[nameId]? = some inputs.predecessor) →
      transaction.operation = some prepared.publication.operation →
      transaction.actions[inputs.designatedActionIndex.val]? = some action →
      action.nullifier = inputs.predecessor.futureNf →
      action.commitment = prepared.statement.actionCommitment →
      ∃ op terminated' o', prepared.publication.operation = .refresh op ∧
        o.records.ledger.refreshStatement reducer.rules.parameters block.height transaction op =
          some prepared.statement ∧
        o.applyTransactionDetailed reducer.rules block.height transaction terminated =
          some (⟨some .refresh, .refreshAccept⟩, terminated', o') := by
  obtain ⟨start, calls, replies, hnew, hrun⟩ := hreached.reached
  obtain ⟨hvalid, hstart⟩ := Reducer.new_eq_ok_iff.1 hnew
  have hrules : reducer.rules = ⟨deployment.schedule deploymentId,
    orchardProofVerifier, hvalid⟩ := by
    rw [(Survives.of_run hnew hrun).rules, hstart]
  obtain ⟨expiry, hexpiry⟩ := Parameters.exists_expiry_iff.2
    (show block.height.val + (deployment.schedule deploymentId).leaseBlocks.val ≤ 4294967295 from
      hlease)
  refine ⟨?_, ?_⟩
  · rintro inputs rng commitHeight commit prepared action rfl hheight hcommit hsameEpoch hstored
      hreveal hfree hop haction hnullifier hcommitment
    obtain ⟨nameId, epoch, spendingKey, opening, proof, hprepares⟩ :=
      prepareReveal_eq_ok hid hreveal
    obtain ⟨epoch', spendingKey', opening', hepoch', hkey', hopens', hcommitted⟩ :=
      prepareCommit_eq_ok hid hcommit
    have haccepts := hprepares.accepts
    have hmature := hprepares.mature
    have hepoch := hprepares.epoch_eq
    rw [hheight] at haccepts hmature hepoch
    -- the COMMIT was prepared for the same epoch, so with the same opening
    obtain rfl : epoch' = epoch := Except.ok.inj (hepoch'.symm.trans (hsameEpoch.trans hepoch))
    obtain rfl : spendingKey' = spendingKey := Except.ok.inj (hkey'.symm.trans hprepares.key)
    obtain rfl : opening' = opening := Except.ok.inj (hopens'.symm.trans hprepares.opens)
    have hstatement : o.records.ledger.revealStatement reducer.rules.parameters block.height
        transaction
        { name := inputs.name
          commit := inputs.commitRef
          ua := inputs.ua
          actionIndex := inputs.designatedActionIndex
          successorFutureNf := prepared.statement.successorFutureNf
          proof } = some prepared.statement := by
      rw [hrules, Ledger.revealStatement_eq hprepares.name (hstored _ hcommitted) haction hepoch,
        hnullifier, hcommitment, hprepares.statement]
      rfl
    have hproof : reducer.rules.verifier.verifyReveal prepared.statement proof = true := by
      rw [hrules]
      exact hcomplete.verifyReveal hprepares.witnessed hprepares.proves
    rw [← show reducer.rules.parameters = inputs.deployment.schedule deploymentId from
      congrArg Rules.parameters hrules] at haccepts hmature hepoch hexpiry
    rw [hprepares.operation] at hop
    obtain ⟨terminated', o', hdetailed⟩ := hinside.accepts_reveal hreached.indexed hop
      (Ledger.revealed_of_checks hprepares.name (hfree _ hprepares.name) haccepts hmature haction
        (hinside.actionIndex_eq hblock haction) hepoch hstatement hproof hexpiry)
    exact ⟨_, terminated', o', hprepares.operation, hstatement, hdetailed⟩
  · rintro inputs rng prepared action rfl hheight hrefresh hcurrent hop haction
      hnullifier hcommitment
    obtain ⟨nameId, epoch, spendingKey, proof, hprepares⟩ := prepareRefresh_eq_ok hid hrefresh
    have hactive := hprepares.active
    have haccepts := hprepares.accepts
    have hepoch := hprepares.epoch_eq
    rw [hheight] at hactive haccepts hepoch
    rw [← show reducer.rules.parameters = inputs.deployment.schedule deploymentId from
      congrArg Rules.parameters hrules] at hactive haccepts hepoch hexpiry
    have hstatement : prepared.statement =
        { deploymentId := reducer.rules.parameters.deploymentId
          nameId := nameId
          predecessorRef := inputs.predecessor.producer
          predecessorCommitment := inputs.predecessor.commitment
          predecessorFutureNf := inputs.predecessor.futureNf
          predecessorEpoch := inputs.predecessor.producerEpoch
          inclusionEpoch := epoch
          ua := inputs.ua
          actionIndex := inputs.designatedActionIndex
          actionNullifier := action.nullifier
          actionCommitment := action.commitment
          successorFutureNf := prepared.statement.successorFutureNf } := by
      rw [hnullifier, hcommitment, hrules]
      exact hprepares.statement
    have hproof : reducer.rules.verifier.verifyRefresh prepared.statement proof = true := by
      rw [hrules]
      exact hcomplete.verifyRefresh hprepares.witnessed hprepares.proves
    rw [hstatement] at hproof
    rw [hprepares.operation] at hop
    obtain ⟨terminated', o', hdetailed⟩ := hinside.accepts_refresh hreached.indexed hop
      (Ledger.refreshed_of_checks hprepares.name (hcurrent _ hprepares.name) hepoch hactive rfl
        hprepares.later haccepts haction (hinside.actionIndex_eq hblock haction) hnullifier hproof
        hexpiry)
    refine ⟨_, terminated', o', hprepares.operation, ?_, hdetailed⟩
    rw [Ledger.refreshStatement_eq hprepares.name (hcurrent _ hprepares.name) haction hepoch,
      hstatement]

end Acceptance

/-! ### A prepared REVEAL and REFRESH of `alice` -/

namespace Sample

/-- A proof is the beginning of the digest. -/
scoped instance circuits : Circuits where
  CommitSecret := Bytes32
  StatementDigest := Bytes32
  Rng := Unit
  commitSecretFromBytes := some
  statementDigestFromBytes := some
  proveReveal _ _ _ _ digest _ := some (digest.toList.take 3)
  proveRefresh _ _ _ _ digest _ := some (digest.toList.take 2)
  verifyReveal proof digest := proof == digest.toList.take 3
  verifyRefresh proof digest := proof == digest.toList.take 2

theorem proofsComplete : ProofsComplete where
  reveal _ digest _ _ _ _ _ proof _ _ _ hproof := by
    show (proof == digest.toList.take 3) = true
    rw [← Option.some.inj hproof, beq_self_eq_true]
  refresh _ digest _ _ _ _ proof _ _ hproof := by
    show (proof == digest.toList.take 2) = true
    rw [← Option.some.inj hproof, beq_self_eq_true]

/-- The identity of the small deployment. -/
def deploymentId : Bytes32 :=
  Vector.replicate 32 0

theorem deploymentId_eq : deployment.deploymentId = .ok deploymentId := by
  have hid : deployment.deploymentId.toOption = some deploymentId := by decide +kernel
  exact Except.toOption_eq_some_iff.1 hid

theorem schedule_valid : (deployment.schedule deploymentId).Valid :=
  Parameters.validate_eq_ok_iff.1 (by decide)

/-- A new reducer of the small deployment that verifies proofs. -/
def verifyingStart : Reducer :=
  { Records.empty with
    rules := ⟨deployment.schedule deploymentId, orchardProofVerifier, schedule_valid⟩
    nextHeight := some 0
    tipHeight := none
    previousHash := parent
    history := [] }

theorem new_eq_verifyingStart :
    Reducer.new (deployment.schedule deploymentId) parent orchardProofVerifier =
      .ok verifyingStart :=
  Reducer.new_eq_ok_iff.2 ⟨schedule_valid, rfl⟩

/-- What the wallet knows before the REVEAL. -/
def revealInputs : RevealInputs where
  walletSeed := walletSeed
  deployment := deployment
  name := alice
  commitRef := ⟨0, 0, Vector.replicate 32 10⟩
  ua := ua
  operationHeight := 1
  designatedActionIndex := 0
  registrationFvk := Vector.replicate 32 5
  registrationNote := (1 : UInt8)

/-- The prepared REVEAL, in a transaction. -/
def preparedRevealTransaction : Transaction :=
  ⟨0, Vector.replicate 32 11, [⟨0, field 3, field 6⟩], some (.reveal
    { name := alice
      commit := ⟨0, 0, Vector.replicate 32 10⟩
      ua := ua
      actionIndex := 0
      successorFutureNf := field 7
      proof := [1, 0, 0] })⟩

def preparedRevealBlock : Block :=
  ⟨1, Vector.replicate 32 2, block0.hash, [preparedRevealTransaction]⟩

/-- The head that the REVEAL installs. -/
def revealedHead : Head where
  name := alice
  ua := ua
  producer := ⟨1, 0, Vector.replicate 32 11, 0⟩
  commitment := field 6
  futureNf := field 7
  producerEpoch := 0
  expiryHeight := 5
  terminalHeight := none

/-- What the wallet knows before the REFRESH. -/
def refreshInputs : RefreshInputs where
  walletSeed := walletSeed
  deployment := deployment
  name := alice
  predecessor := revealedHead
  predecessorNote := (3 : UInt8)
  ua := ua
  operationHeight := 4
  designatedActionIndex := 0

/-- The prepared REFRESH, in a transaction. -/
def preparedRefreshTransaction : Transaction :=
  ⟨0, Vector.replicate 32 15, [⟨0, field 7, field 14⟩], some (.refresh
    { name := alice
      predecessor := ⟨1, 0, Vector.replicate 32 11, 0⟩
      ua := ua
      actionIndex := 0
      successorFutureNf := field 15
      proof := [1, 0] })⟩

def preparedRefreshBlock : Block :=
  { emptyBlock 4 5 4 with transactions := [preparedRefreshTransaction] }

/-- The COMMIT and the REVEAL are prepared. -/
theorem exists_preparedReveal : ∃ commit prepared,
    prepareCommit walletSeed deployment alice 1 = .ok commit ∧
    commit.publication.operation = .commit commitment ∧
    prepareReveal revealInputs () = .ok prepared ∧
    preparedRevealTransaction.operation = some prepared.publication.operation ∧
    prepared.statement.actionNullifier = field 3 ∧
      prepared.statement.actionCommitment = field 6 := by
  have hcommit : (prepareCommit walletSeed deployment alice 1).toOption.map
      (fun commit ↦ commit.publication.operation) = some (.commit commitment) := by decide +kernel
  have hreveal : (prepareReveal revealInputs ()).toOption.map (fun prepared ↦
      (some prepared.publication.operation, prepared.statement.actionNullifier,
        prepared.statement.actionCommitment)) =
      some (preparedRevealTransaction.operation, field 3, field 6) := by
    decide +kernel
  simp only [Option.map_eq_some_iff, Except.toOption_eq_some_iff, Prod.mk.injEq] at hcommit hreveal
  obtain ⟨commit, hcommit, hoperation⟩ := hcommit
  obtain ⟨prepared, hprepared, hsame, hnullifier, hcommitment⟩ := hreveal
  exact ⟨commit, prepared, hcommit, hoperation, hprepared, hsame.symm, hnullifier, hcommitment⟩

/-- The REFRESH is prepared. -/
theorem exists_preparedRefresh : ∃ prepared, prepareRefresh refreshInputs () = .ok prepared ∧
    preparedRefreshTransaction.operation = some prepared.publication.operation ∧
    prepared.statement.actionCommitment = field 14 := by
  have hrefresh : (prepareRefresh refreshInputs ()).toOption.map (fun prepared ↦
      (some prepared.publication.operation, prepared.statement.actionCommitment)) =
      some (preparedRefreshTransaction.operation, field 14) := by
    decide +kernel
  simp only [Option.map_eq_some_iff, Except.toOption_eq_some_iff, Prod.mk.injEq] at hrefresh
  obtain ⟨prepared, hprepared, hsame, hcommitment⟩ := hrefresh
  exact ⟨prepared, hprepared, hsame.symm, hcommitment⟩

/-- Where the REVEAL meets the reducer. -/
theorem exists_insideReveal : ∃ reducer o,
    FromNew (deployment.schedule deploymentId) parent orchardProofVerifier reducer ∧
    InsideBlock reducer preparedRevealBlock [] [] [] o ∧
    o.records.commits[revealInputs.commitRef]? = some commitment ∧
    ∀ nameId, alice.id = .ok nameId → o.records.heads[nameId]? = none := by
  have hevaluated : (verifyingStart.run [.applyBlock block0 []]).bind (fun result ↦
      (admission result.2.rules.parameters result.2.nextHeight result.2.previousHash
        result.2.commits preparedRevealBlock []).toOption.bind fun supplied ↦
          (result.2.startBlock 1 supplied).bind fun started ↦ alice.id.toOption.map fun nameId ↦
            (started.2.records.commits[revealInputs.commitRef]?,
              started.2.records.heads[nameId]?)) =
      some (some commitment, none) := by
    decide +kernel
  simp only [Option.bind_eq_some_iff, Option.map_eq_some_iff, Prod.mk.injEq,
    Except.toOption_eq_some_iff] at hevaluated
  obtain ⟨⟨replies, reducer⟩, hrun, supplied, hadmission, ⟨compacted, o⟩, hstart, nameId, hname,
    hcommit, hfree⟩ := hevaluated
  refine ⟨reducer, o, ⟨verifyingStart, _, replies, new_eq_verifyingStart, hrun⟩,
    ⟨supplied, compacted, o, [], hadmission, hstart, rfl⟩, hcommit, fun nameId' hname' ↦ ?_⟩
  rwa [show nameId' = nameId from Except.ok.inj (hname'.symm.trans hname)]

/-- Where the REFRESH meets the reducer. -/
theorem exists_insideRefresh : ∃ reducer o,
    FromNew (deployment.schedule deploymentId) parent orchardProofVerifier reducer ∧
    InsideBlock reducer preparedRefreshBlock [] [] [] o ∧
    ∀ nameId, alice.id = .ok nameId → o.records.heads[nameId]? = some revealedHead := by
  have hevaluated : (verifyingStart.run [.applyBlock block0 [], .applyBlock preparedRevealBlock [],
      .applyBlock (emptyBlock 2 3 2) [], .applyBlock (emptyBlock 3 4 3) []]).bind (fun result ↦
      (admission result.2.rules.parameters result.2.nextHeight result.2.previousHash
        result.2.commits preparedRefreshBlock []).toOption.bind fun supplied ↦
          (result.2.startBlock 4 supplied).bind fun started ↦ alice.id.toOption.bind fun nameId ↦
            started.2.records.heads[nameId]?) =
      some revealedHead := by
    decide +kernel
  simp only [Option.bind_eq_some_iff, Except.toOption_eq_some_iff] at hevaluated
  obtain ⟨⟨replies, reducer⟩, hrun, supplied, hadmission, ⟨compacted, o⟩, hstart, nameId, hname,
    hhead⟩ := hevaluated
  refine ⟨reducer, o, ⟨verifyingStart, _, replies, new_eq_verifyingStart, hrun⟩,
    ⟨supplied, compacted, o, [], hadmission, hstart, rfl⟩, fun nameId' hname' ↦ ?_⟩
  rwa [show nameId' = nameId from Except.ok.inj (hname'.symm.trans hname)]

theorem prepared_operations_accepted_alice :
    (∃ (reducer : Reducer) (o : OpenBlock) (prepared : PreparedReveal) (op : Reveal)
        (terminated : List Termination) (o' : OpenBlock),
      prepareReveal revealInputs () = .ok prepared ∧
      prepared.publication.operation = .reveal op ∧
      o.records.ledger.revealStatement reducer.rules.parameters 1 preparedRevealTransaction op =
        some prepared.statement ∧
      o.applyTransactionDetailed reducer.rules 1 preparedRevealTransaction [] =
        some (⟨some .reveal, .revealAccept⟩, terminated, o')) ∧
    ∃ (reducer : Reducer) (o : OpenBlock) (prepared : PreparedRefresh) (op : Refresh)
        (terminated : List Termination) (o' : OpenBlock),
      prepareRefresh refreshInputs () = .ok prepared ∧
      prepared.publication.operation = .refresh op ∧
      o.records.ledger.refreshStatement reducer.rules.parameters 4 preparedRefreshTransaction op =
        some prepared.statement ∧
      o.applyTransactionDetailed reducer.rules 4 preparedRefreshTransaction [] =
        some (⟨some .refresh, .refreshAccept⟩, terminated, o') := by
  constructor
  · obtain ⟨commit, prepared, hcommit, hcommitted, hreveal, hoperation, hnullifier, hcommitment⟩ :=
      exists_preparedReveal
    obtain ⟨reducer, o, hreached, hinside, hstored, hfree⟩ := exists_insideReveal
    obtain ⟨op, terminated, o', hop, hstatement, haccepted⟩ :=
      (prepared_operations_accepted proofsComplete deploymentId_eq hreached hinside
        (List.nil_append _).symm (by decide)).1 revealInputs () 1 commit prepared
        ⟨0, field 3, field 6⟩ rfl rfl hcommit rfl
        (fun c hc ↦ by rw [hstored, Operation.commit.inj (hcommitted.symm.trans hc)]) hreveal hfree
        hoperation rfl hnullifier.symm hcommitment.symm
    exact ⟨reducer, o, prepared, op, terminated, o', hreveal, hop, hstatement, haccepted⟩
  · obtain ⟨prepared, hrefresh, hoperation, hcommitment⟩ := exists_preparedRefresh
    obtain ⟨reducer, o, hreached, hinside, hcurrent⟩ := exists_insideRefresh
    obtain ⟨op, terminated, o', hop, hstatement, haccepted⟩ :=
      (prepared_operations_accepted proofsComplete deploymentId_eq hreached hinside
        (List.nil_append _).symm (by decide)).2 refreshInputs () prepared
        ⟨0, field 7, field 14⟩ rfl rfl hrefresh hcurrent hoperation rfl rfl
        hcommitment.symm
    exact ⟨reducer, o, prepared, op, terminated, o', hrefresh, hop, hstatement, haccepted⟩

end Sample

end CoppiceNames
