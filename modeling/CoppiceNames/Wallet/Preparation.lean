import CoppiceNames.Transport.Publication
import CoppiceNames.Wallet.Recovery

/-!
# Preparing operations

`replacement.rs`: a wallet derives the secrets of an operation from its seed, states the public
facts, proves them, and encodes the publication. The adapters of `proof.rs` stand between the
statements and the circuits, which are parameters.
-/

namespace CoppiceNames

/-! ### Proofs -/

/-- The proving and verifying keys of one deployment, and what the circuits take. -/
class Circuits [Orchard] where
  CommitSecret : Type
  StatementDigest : Type
  Rng : Type
  /-- `CommitSecret::from_bytes`. -/
  commitSecretFromBytes : Bytes32 → Option CommitSecret
  /-- `StatementDigest::from_bytes`. -/
  statementDigestFromBytes : Bytes32 → Option StatementDigest
  /-- `prove_reveal` of the circuit crate, on the parts of its witness. -/
  proveReveal : (successor : Note) → SpendingKey → CommitSecret → Vector Bytes32 12 →
    StatementDigest → Rng → Option (List UInt8)
  /-- `prove_refresh` of the circuit crate, on the parts of its witness. -/
  proveRefresh : (predecessor successor : Note) → SpendingKey → Vector Bytes32 14 →
    StatementDigest → Rng → Option (List UInt8)
  /-- `verify_reveal` of the circuit crate. -/
  verifyReveal : List UInt8 → StatementDigest → Bool
  /-- `verify_refresh` of the circuit crate. -/
  verifyRefresh : List UInt8 → StatementDigest → Bool

/-- `ProofError`. -/
inductive ProofError
  | invalidSecret
  | invalidStatement
  | proving
  deriving DecidableEq, Repr

section Proofs

variable [Primitives] [Orchard] [Circuits]

/-- `digest`. -/
def statementDigest (bytes : Bytes32) : Except ProofError Circuits.StatementDigest :=
  match Circuits.statementDigestFromBytes bytes with
  | some digest => .ok digest
  | none => .error .invalidStatement

omit [Primitives] [Orchard] [Circuits] in
/-- `transcript`. -/
def transcript {n : ℕ} (fields : Vector PallasBase n) : Vector Bytes32 n :=
  fields.map PallasBase.toRepr

/-- `OrchardProofProver::prove_reveal`. -/
def proveReveal (statement : RevealStatement) (successor : Note) (spendingKey : SpendingKey)
    (secret : FieldElement) (rng : Circuits.Rng) : Except ProofError (List UInt8) :=
  match Circuits.commitSecretFromBytes secret.bytes with
  | none => .error .invalidSecret
  | some secret => do
    let digest ← statementDigest (statement.digest Orchard.poseidonPair)
    match Circuits.proveReveal successor spendingKey secret (transcript statement.fields) digest
      rng with
    | some proof => .ok proof
    | none => .error .proving

/-- `OrchardProofProver::prove_refresh`. -/
def proveRefresh (statement : RefreshStatement) (predecessor successor : Note)
    (spendingKey : SpendingKey) (rng : Circuits.Rng) : Except ProofError (List UInt8) := do
  let digest ← statementDigest (statement.digest Orchard.poseidonPair)
  match Circuits.proveRefresh predecessor successor spendingKey (transcript statement.fields) digest
    rng with
  | some proof => .ok proof
  | none => .error .proving

/-- `OrchardProofVerifier`. -/
def orchardProofVerifier : ProofVerifier where
  verifyReveal statement proof :=
    match statementDigest (statement.digest Orchard.poseidonPair) with
    | .ok digest => Circuits.verifyReveal proof digest
    | .error _ => false
  verifyRefresh statement proof :=
    match statementDigest (statement.digest Orchard.poseidonPair) with
    | .ok digest => Circuits.verifyRefresh proof digest
    | .error _ => false

/-- What a REVEAL proves of its witness: the secret is nonzero and opens the COMMIT under the owner,
and the successor is a bond note of the owner that gives the facts of the designated action. -/
structure RevealStatement.Witnessed (statement : RevealStatement) (successor : Note)
    (spendingKey : SpendingKey) (secret : FieldElement) : Prop where
  nonzero : secret.bytes ≠ PallasBase.toRepr 0
  opens : ∃ owner, FieldElement.fromBytes (Orchard.ownerCommitment spendingKey) = .ok owner ∧
    registrationCommitment Orchard.poseidonPair statement.deploymentId statement.nameId
      statement.inclusionEpoch owner secret = statement.commitment.bytes
  bond : IsBondNote spendingKey statement.actionNullifier successor
  actionCommitment : Orchard.noteCommitment successor = statement.actionCommitment.bytes
  successorFutureNf : Orchard.noteNullifier successor (Orchard.fullViewingKey spendingKey) =
    statement.successorFutureNf.bytes

/-- What a REFRESH proves of its witness: the predecessor has the bond value and gives the facts of
the accepted head, the designated action spends it, and the successor is a bond note of the same
owner that gives the other facts of the action. -/
structure RefreshStatement.Witnessed (statement : RefreshStatement) (predecessor successor : Note)
    (spendingKey : SpendingKey) : Prop where
  predecessorValue : Orchard.noteValue predecessor = bondZatoshis
  predecessorCommitment : Orchard.noteCommitment predecessor = statement.predecessorCommitment.bytes
  predecessorFutureNf : Orchard.noteNullifier predecessor (Orchard.fullViewingKey spendingKey) =
    statement.predecessorFutureNf.bytes
  spends : statement.actionNullifier = statement.predecessorFutureNf
  bond : IsBondNote spendingKey statement.actionNullifier successor
  actionCommitment : Orchard.noteCommitment successor = statement.actionCommitment.bytes
  successorFutureNf : Orchard.noteNullifier successor (Orchard.fullViewingKey spendingKey) =
    statement.successorFutureNf.bytes

/-- The verifier accepts an honest proof: one made of exactly its statement, from a witness that
satisfies it. -/
structure ProofsComplete : Prop where
  reveal : ∀ (statement : RevealStatement) (digest : Circuits.StatementDigest) (successor : Note)
    (spendingKey : SpendingKey) (secret : FieldElement) (commitSecret : Circuits.CommitSecret)
    (rng : Circuits.Rng) (proof : List UInt8),
    statement.Witnessed successor spendingKey secret →
    Circuits.commitSecretFromBytes secret.bytes = some commitSecret →
    Circuits.statementDigestFromBytes (statement.digest Orchard.poseidonPair) = some digest →
    Circuits.proveReveal successor spendingKey commitSecret (transcript statement.fields) digest
      rng = some proof → Circuits.verifyReveal proof digest = true
  refresh : ∀ (statement : RefreshStatement) (digest : Circuits.StatementDigest)
    (predecessor successor : Note) (spendingKey : SpendingKey) (rng : Circuits.Rng)
    (proof : List UInt8),
    statement.Witnessed predecessor successor spendingKey →
    Circuits.statementDigestFromBytes (statement.digest Orchard.poseidonPair) = some digest →
    Circuits.proveRefresh predecessor successor spendingKey (transcript statement.fields) digest
      rng = some proof → Circuits.verifyRefresh proof digest = true

omit [Primitives] in
theorem statementDigest_eq_ok_iff {bytes : Bytes32} {digest : Circuits.StatementDigest} :
    statementDigest bytes = .ok digest ↔ Circuits.statementDigestFromBytes bytes = some digest := by
  rw [statementDigest]
  split
  · rename_i found hfound
    rw [hfound, Except.ok.injEq, Option.some_inj]
  · rename_i hnone
    simp [hnone]

/-- An honest proof by the adapter is accepted by the adapter. -/
theorem ProofsComplete.verifyReveal (h : ProofsComplete) {statement : RevealStatement}
    {successor : Note} {spendingKey : SpendingKey} {secret : FieldElement} {rng : Circuits.Rng}
    {proof : List UInt8} (hwitnessed : statement.Witnessed successor spendingKey secret)
    (hproof : proveReveal statement successor spendingKey secret rng = .ok proof) :
    orchardProofVerifier.verifyReveal statement proof = true := by
  rw [proveReveal] at hproof
  split at hproof
  · exact absurd hproof (by simp)
  rename_i commitSecret hsecret
  obtain ⟨digest, hdigest, hproof⟩ := Except.bind_eq_ok_iff.1 hproof
  split at hproof
  · rename_i found hfound
    obtain rfl := Except.ok.inj hproof
    show (match statementDigest (statement.digest Orchard.poseidonPair) with
      | .ok digest => Circuits.verifyReveal found digest
      | .error _ => false) = true
    rw [hdigest]
    exact h.reveal statement digest successor spendingKey secret commitSecret rng found hwitnessed
      hsecret (statementDigest_eq_ok_iff.1 hdigest) hfound
  · exact absurd hproof (by simp)

theorem ProofsComplete.verifyRefresh (h : ProofsComplete) {statement : RefreshStatement}
    {predecessor successor : Note} {spendingKey : SpendingKey} {rng : Circuits.Rng}
    {proof : List UInt8} (hwitnessed : statement.Witnessed predecessor successor spendingKey)
    (hproof : proveRefresh statement predecessor successor spendingKey rng = .ok proof) :
    orchardProofVerifier.verifyRefresh statement proof = true := by
  obtain ⟨digest, hdigest, hproof⟩ := Except.bind_eq_ok_iff.1 hproof
  split at hproof
  · rename_i found hfound
    obtain rfl := Except.ok.inj hproof
    show (match statementDigest (statement.digest Orchard.poseidonPair) with
      | .ok digest => Circuits.verifyRefresh found digest
      | .error _ => false) = true
    rw [hdigest]
    exact h.refresh statement digest predecessor successor spendingKey rng found hwitnessed
      (statementDigest_eq_ok_iff.1 hdigest) hfound
  · exact absurd hproof (by simp)

end Proofs

/-! ### Preparation -/

/-- `carrier_value_zatoshis`. -/
def PreparedPublication.carrierValueZatoshis [Primitives] [Core] (_ : PreparedPublication) : ℕ := 0

section Preparation

variable [Primitives] [Core] [KeyedHash] [Orchard] [Circuits]

/-- The error that a failed preparation carries in its message. -/
inductive PreparationCause
  | deployment (e : DeploymentError)
  | value (e : ValueError)
  | schedule (e : ScheduleError)
  | recovery (e : RecoveryError)
  | proof (e : ProofError)
  | publication (e : PublicationError)

/-- A failed preparation: a refused input, or a step with the error behind it. -/
inductive PreparationError
  | refused (text : String)
  | failed (step : String) (cause : PreparationCause)

/-- `ensure!`. -/
def PreparationError.ensure (holds : Bool) (text : String) : Except PreparationError Unit :=
  if holds = true then .ok () else .error (.refused text)

/-- A step of a preparation, with the context its error is reported under. -/
def during {ε α : Type} (step : String) (cause : ε → PreparationCause) (result : Except ε α) :
    Except PreparationError α :=
  result.mapError fun e ↦ .failed step (cause e)

/-- `PreparedCommit`. -/
structure PreparedCommit where
  targetEpoch : U32
  publication : PreparedPublication

/-- `prepare_commit`. -/
def prepareCommit (walletSeed : List UInt8) (deployment : DeploymentParameters) (name : Name)
    (revealHeight : U32) : Except PreparationError PreparedCommit := do
  let deployment ← during "invalid Names deployment" .deployment deployment.validate
  let deploymentId ← during "derive Names deployment ID" .deployment deployment.deploymentId
  let schedule := deployment.schedule deploymentId
  let nameId ← during "derive canonical name ID" .value name.id
  PreparationError.ensure (schedule.acceptsOperation nameId revealHeight)
    "REVEAL height is outside the name's canonical operation window"
  let targetEpoch ← during "derive REVEAL epoch" .schedule (schedule.epoch revealHeight)
  let spendingKey ← during "derive per-name authority" .recovery
    (deriveNameSpendingKey walletSeed deploymentId name).result
  let opening ← during "derive recoverable COMMIT opening" .recovery
    (deriveCommitOpening spendingKey deploymentId name targetEpoch).result
  let publication ← during "prepare COMMIT publication" .publication
    (preparePublication (.commit opening.commitment) deployment)
  return ⟨targetEpoch, publication⟩

/-- `RevealInputs`. -/
structure RevealInputs where
  walletSeed : List UInt8
  deployment : DeploymentParameters
  name : Name
  commitRef : CommitRef
  ua : CanonicalUa
  operationHeight : U32
  designatedActionIndex : U32
  registrationFvk : FullViewingKey
  registrationNote : Note

/-- `PreparedReveal`. -/
structure PreparedReveal where
  statement : RevealStatement
  successorNote : Note
  publication : PreparedPublication
  operationHeight : U32

/-- `prepare_reveal`. -/
def prepareReveal (inputs : RevealInputs) (rng : Circuits.Rng) :
    Except PreparationError PreparedReveal := do
  let deployment ← during "invalid Names deployment" .deployment inputs.deployment.validate
  let deploymentId ← during "derive Names deployment ID" .deployment deployment.deploymentId
  let schedule := deployment.schedule deploymentId
  let nameId ← during "derive canonical name ID" .value inputs.name.id
  PreparationError.ensure (schedule.acceptsOperation nameId inputs.operationHeight)
    "REVEAL height is outside the name's canonical operation window"
  PreparationError.ensure (schedule.acceptsCommit inputs.commitRef.height inputs.operationHeight)
    "referenced COMMIT is not mature and unexpired at the REVEAL height"
  PreparationError.ensure (Orchard.noteValue inputs.registrationNote = bondZatoshis)
    "REVEAL designated input is not exactly the one-ZEC bond"
  let targetEpoch ← during "derive REVEAL epoch" .schedule (schedule.epoch inputs.operationHeight)
  let spendingKey ← during "derive per-name authority" .recovery
    (deriveNameSpendingKey inputs.walletSeed deploymentId inputs.name).result
  let opening ← during "derive recoverable COMMIT opening" .recovery
    (deriveCommitOpening spendingKey deploymentId inputs.name targetEpoch).result
  let actionNullifier ← during "derive designated nullifier" .value
    (FieldElement.fromBytes (Orchard.noteNullifier inputs.registrationNote inputs.registrationFvk))
  let successorNote ← during "derive recoverable REVEAL bond note" .recovery
    (deriveRevealBondNote spendingKey deploymentId inputs.commitRef targetEpoch inputs.ua
      inputs.designatedActionIndex actionNullifier).result
  let successorFvk := Orchard.fullViewingKey spendingKey
  let actionCommitment ← during "derive successor commitment" .value
    (FieldElement.fromBytes (Orchard.noteCommitment successorNote))
  let successorFutureNf ← during "derive successor nullifier" .value
    (FieldElement.fromBytes (Orchard.noteNullifier successorNote successorFvk))
  let statement : RevealStatement :=
    { deploymentId
      nameId
      inclusionEpoch := targetEpoch
      commitment := opening.commitment
      commitRef := inputs.commitRef
      ua := inputs.ua
      actionIndex := inputs.designatedActionIndex
      actionNullifier
      actionCommitment
      successorFutureNf }
  let proof ← during "prove REVEAL" .proof
    (proveReveal statement successorNote spendingKey opening.secret rng)
  let operation : Reveal :=
    { name := inputs.name
      commit := inputs.commitRef
      ua := inputs.ua
      actionIndex := inputs.designatedActionIndex
      successorFutureNf
      proof }
  let publication ← during "prepare REVEAL publication" .publication
    (preparePublication (.reveal operation) deployment)
  PreparationError.ensure (publication.carrierValueZatoshis = 0)
    "replacement Names carrier value is not zero"
  return ⟨statement, successorNote, publication, inputs.operationHeight⟩

/-- `RefreshInputs`. -/
structure RefreshInputs where
  walletSeed : List UInt8
  deployment : DeploymentParameters
  name : Name
  predecessor : Head
  predecessorNote : Note
  ua : CanonicalUa
  operationHeight : U32
  designatedActionIndex : U32

/-- `PreparedRefresh`. -/
structure PreparedRefresh where
  statement : RefreshStatement
  successorNote : Note
  publication : PreparedPublication
  operationHeight : U32

/-- `prepare_refresh`. -/
def prepareRefresh (inputs : RefreshInputs) (rng : Circuits.Rng) :
    Except PreparationError PreparedRefresh := do
  let predecessor := inputs.predecessor
  let deployment ← during "invalid Names deployment" .deployment inputs.deployment.validate
  let deploymentId ← during "derive Names deployment ID" .deployment deployment.deploymentId
  let schedule := deployment.schedule deploymentId
  let nameId ← during "derive canonical name ID" .value inputs.name.id
  PreparationError.ensure (predecessor.name = inputs.name) "predecessor belongs to another name"
  PreparationError.ensure (predecessor.lifecycle inputs.operationHeight schedule = .active)
    "predecessor is not active at the REFRESH height"
  PreparationError.ensure (schedule.acceptsOperation nameId inputs.operationHeight)
    "REFRESH height is outside the name's canonical operation window"
  let targetEpoch ← during "derive REFRESH epoch" .schedule (schedule.epoch inputs.operationHeight)
  PreparationError.ensure (predecessor.producerEpoch < targetEpoch)
    "REFRESH must occur in a later epoch than its predecessor"
  PreparationError.ensure (Orchard.noteValue inputs.predecessorNote = bondZatoshis)
    "REFRESH predecessor is not exactly the one-ZEC bond"
  let spendingKey ← during "derive per-name authority" .recovery
    (deriveNameSpendingKey inputs.walletSeed deploymentId inputs.name).result
  let fvk := Orchard.fullViewingKey spendingKey
  let predecessorCommitment ← during "derive predecessor commitment" .value
    (FieldElement.fromBytes (Orchard.noteCommitment inputs.predecessorNote))
  let predecessorFutureNf ← during "derive predecessor nullifier" .value
    (FieldElement.fromBytes (Orchard.noteNullifier inputs.predecessorNote fvk))
  PreparationError.ensure (predecessorCommitment = predecessor.commitment ∧
      predecessorFutureNf = predecessor.futureNf)
    "reconstructed predecessor note does not match the canonical head"
  let successorNote ← during "derive recoverable REFRESH bond note" .recovery
    (deriveRefreshBondNote spendingKey deploymentId predecessor.producer targetEpoch inputs.ua
      inputs.designatedActionIndex predecessorFutureNf).result
  let actionCommitment ← during "derive successor commitment" .value
    (FieldElement.fromBytes (Orchard.noteCommitment successorNote))
  let successorFutureNf ← during "derive successor nullifier" .value
    (FieldElement.fromBytes (Orchard.noteNullifier successorNote fvk))
  let statement : RefreshStatement :=
    { deploymentId
      nameId
      predecessorRef := predecessor.producer
      predecessorCommitment
      predecessorFutureNf
      predecessorEpoch := predecessor.producerEpoch
      inclusionEpoch := targetEpoch
      ua := inputs.ua
      actionIndex := inputs.designatedActionIndex
      actionNullifier := predecessorFutureNf
      actionCommitment
      successorFutureNf }
  let proof ← during "prove REFRESH" .proof
    (proveRefresh statement inputs.predecessorNote successorNote spendingKey rng)
  let operation : Refresh :=
    { name := inputs.name
      predecessor := predecessor.producer
      ua := inputs.ua
      actionIndex := inputs.designatedActionIndex
      successorFutureNf
      proof }
  let publication ← during "prepare REFRESH publication" .publication
    (preparePublication (.refresh operation) deployment)
  PreparationError.ensure (publication.carrierValueZatoshis = 0)
    "replacement Names carrier value is not zero"
  return ⟨statement, successorNote, publication, inputs.operationHeight⟩

end Preparation

end CoppiceNames
