import CoppiceNames.Transport.Deployment
import CoppiceNames.Protocol.CodecCorrectness

/-!
# Inspection of Core transactions

`transport.rs`: what a Core-authenticated transaction says at a Names rendezvous, and the reducer
input of a block for a requested name.

Every inspection ends in `classify_inspection`. Two facts specify it for what follows: when an
operation survives (`classifyInspection_eq_operation_iff`), and when a route shows nothing that
concerns this application (`classifyInspection_quiet_iff`).
-/

open Std hiding not_le not_lt

namespace CoppiceNames

/-! ### Core's view of a block -/

/-- The Ironwood effects of a transaction. -/
structure IronwoodEffects where
  nullifiers : List Bytes32
  commitments : List Bytes32
  deriving DecidableEq

section Inspection

variable [Primitives] [Core]

/-- `CoreTransactionContext`. The full transaction is there when Core authenticated its bytes. -/
structure CoreTransactionContext where
  txIndex : U32
  txid : Bytes32
  ironwoodEffects : IronwoodEffects
  validatedFullTransaction : Option Core.FullTransaction

/-- `CoreBlockContext`, with the tree size of its Ironwood checkpoint. -/
structure CoreBlockContext where
  height : U32
  blockHash : Bytes32
  prevBlockHash : Bytes32
  transactions : List CoreTransactionContext
  treeSize : U32

/-- `CorePositionedBlockContext`. -/
structure CorePositionedBlockContext where
  height : U32
  blockHash : Bytes32
  prevBlockHash : Bytes32
  transactions : List CoreTransactionContext
  preIronwoodTreeSize : U32

/-! ### Results -/

/-- `TransportConfigurationError`. -/
inductive TransportConfigurationError
  | invalidDeployment (e : DeploymentError)
  | invalidName (e : ValueError)
  | invalidRendezvous (e : Core.RendezvousError)
  | runtimeMismatch

/-- `BlockTransportError`. -/
inductive BlockTransportError
  | configuration (e : TransportConfigurationError)
  | invalidActionEffects
  | invalidActionPosition

/-- `TransportRejection`. -/
inductive TransportRejection
  | unauthenticatedFullTransaction
  | nonZeroCarrierValue
  | malformedCarrier (e : Core.CarrierError)
  | malformedEnvelope
  | wrongApplication
  | invalidOperation (e : CodecError)
  | wrongRoute

/-- `NamesTransportStatus`. -/
inductive NamesTransportStatus
  | noOperation
  | rejected (rejection : TransportRejection)
  | operation (operation : Operation)

/-- `ExpectedRoute`. -/
inductive ExpectedRoute
  | commit
  | name (name : Name)

/-- The message status of Core. -/
abbrev MessageStatus :=
  ApplicationMessageStatus Core.CarrierError Core.EnvelopeError Core.Envelope

/-! ### Positions of actions -/

/-- The number of actions of a transaction. -/
def actionCount (transaction : CoreTransactionContext) : Except BlockTransportError U32 :=
  match U32.ofUsize transaction.ironwoodEffects.commitments.length with
  | none => .error .invalidActionPosition
  | some count => .ok count

/-- The check on the effects of a transaction. -/
def checkEffects (transaction : CoreTransactionContext) : Except BlockTransportError Unit :=
  if transaction.ironwoodEffects.nullifiers.length ≠
      transaction.ironwoodEffects.commitments.length then .error .invalidActionEffects
  else .ok ()

/-- A checked sum of positions. -/
def addPosition (a b : U32) : Except BlockTransportError U32 :=
  match U32.checkedAdd a b with
  | none => .error .invalidActionPosition
  | some position => .ok position

/-- The first loop of `authenticated_action_position`: the actions of a block. -/
def totalActions (total : U32) : List CoreTransactionContext → Except BlockTransportError U32
  | [] => .ok total
  | transaction :: rest => do
    checkEffects transaction
    totalActions (← addPosition total (← actionCount transaction)) rest

/-- The second loop of `authenticated_action_position`, which checks no effects. -/
def countPosition (position txIndex actionIndex : U32) :
    List CoreTransactionContext → Except BlockTransportError U32
  | [] => .error .invalidActionPosition
  | transaction :: rest => do
    let count ← actionCount transaction
    if transaction.txIndex = txIndex then
      if actionIndex ≥ count then .error .invalidActionPosition
      else addPosition position actionIndex
    else countPosition (← addPosition position count) txIndex actionIndex rest

/-- `authenticated_action_position`. -/
def authenticatedActionPosition (block : CoreBlockContext) (txIndex actionIndex : U32) :
    Except BlockTransportError U32 := do
  let total ← totalActions 0 block.transactions
  match U32.checkedSub block.treeSize total with
  | none => .error .invalidActionPosition
  | some position => countPosition position txIndex actionIndex block.transactions

/-- `action_position`. -/
def actionPosition (position txIndex actionIndex : U32) :
    List CoreTransactionContext → Except BlockTransportError U32
  | [] => .error .invalidActionPosition
  | transaction :: rest => do
    checkEffects transaction
    let count ← actionCount transaction
    if transaction.txIndex = txIndex then
      if actionIndex ≥ count then .error .invalidActionPosition
      else addPosition position actionIndex
    else actionPosition (← addPosition position count) txIndex actionIndex rest

/-- `positioned_action_position`. -/
def positionedActionPosition (block : CorePositionedBlockContext) (txIndex actionIndex : U32) :
    Except BlockTransportError U32 :=
  actionPosition block.preIronwoodTreeSize txIndex actionIndex block.transactions

/-! ### One transaction at one route -/

/-- An operation belongs on the expected route. -/
def onExpectedRoute : Operation → ExpectedRoute → Bool
  | .commit _, .commit => true
  | .reveal op, .name expected => op.name = expected
  | .refresh op, .name expected => op.name = expected
  | _, _ => false

/-- `classify_inspection`. -/
def classifyInspection (routedFrames : List RoutedFrame) (message : MessageStatus)
    (deployment : DeploymentParameters) (network : Network) (expected : ExpectedRoute) :
    NamesTransportStatus :=
  if routedFrames.any fun frame ↦ frame.value ≠ 0 then .rejected .nonZeroCarrierValue
  else
    match message with
    | .notCandidate => .noOperation
    | .noMessage => .noOperation
    | .malformedTransport e => .rejected (.malformedCarrier e)
    | .malformedEnvelope _ => .rejected .malformedEnvelope
    | .message envelope =>
      match deployment.deploymentId with
      | .error _ => .rejected .wrongApplication
      | .ok deploymentId =>
        if Core.key envelope ≠ ⟨namesApplicationId deploymentId⟩ then .rejected .wrongApplication
        else
          match decode (Core.payload envelope) network deployment.codecParameters with
          | .error e => .rejected (.invalidOperation e)
          | .ok operation =>
            if onExpectedRoute operation expected = false then .rejected .wrongRoute
            else .operation operation

/-- `inspect_validated`. -/
def inspectValidated (transaction : Core.FullTransaction) (rendezvous : Core.Rendezvous)
    (deployment : DeploymentParameters) (network : Network) (expected : ExpectedRoute) :
    NamesTransportStatus :=
  let inspection :=
    Core.inspectTransactionAtRendezvous transaction rendezvous deployment.coreRuntimeId
  classifyInspection inspection.1 inspection.2 deployment network expected

/-- `inspect_authenticated`. -/
def inspectAuthenticated (transaction : CoreTransactionContext) (rendezvous : Core.Rendezvous)
    (deployment : DeploymentParameters) (network : Network) (expected : ExpectedRoute) :
    Except TransportConfigurationError NamesTransportStatus :=
  match deployment.validate with
  | .error e => .error (.invalidDeployment e)
  | .ok validated =>
    match transaction.validatedFullTransaction with
    | none => .ok (.rejected .unauthenticatedFullTransaction)
    | some full => .ok (inspectValidated full rendezvous validated network expected)

/-- `validate_runtime`. -/
def validateRuntime (deployment : DeploymentParameters) (runtime : Core.Runtime) :
    Except TransportConfigurationError DeploymentParameters :=
  match deployment.validate with
  | .error e => .error (.invalidDeployment e)
  | .ok validated =>
    if validated.coreRuntimeId ≠ Core.coreRuntimeId runtime then .error .runtimeMismatch
    else .ok validated

/-- The rendezvous of a name under a deployment. -/
def nameRendezvous (deployment : DeploymentParameters) (name : Name) :
    Except TransportConfigurationError Core.Rendezvous :=
  match deployment.deploymentId with
  | .error e => .error (.invalidDeployment e)
  | .ok deploymentId =>
    match name.id with
    | .error e => .error (.invalidName e)
    | .ok nameId =>
      match NameRoute.derive deploymentId nameId with
      | .error e => .error (.invalidName e)
      | .ok route =>
        match Core.tryNew route.incomingViewingKey route.receiver with
        | .error e => .error (.invalidRendezvous e)
        | .ok rendezvous => .ok rendezvous

/-- `inspect_commit_transaction`. -/
def inspectCommitTransaction (transaction : CoreTransactionContext) (runtime : Core.Runtime)
    (deployment : DeploymentParameters) (network : Network) :
    Except TransportConfigurationError NamesTransportStatus := do
  let validated ← validateRuntime deployment runtime
  inspectAuthenticated transaction (Core.fromValidated runtime) validated network .commit

/-- `inspect_validated_commit_transaction`. -/
def inspectValidatedCommitTransaction (transaction : Core.FullTransaction)
    (runtime : Core.Runtime) (deployment : DeploymentParameters) (network : Network) :
    Except TransportConfigurationError NamesTransportStatus := do
  let validated ← validateRuntime deployment runtime
  return inspectValidated transaction (Core.fromValidated runtime) validated network .commit

/-- `inspect_name_transaction`. -/
def inspectNameTransaction (transaction : CoreTransactionContext) (runtime : Core.Runtime)
    (deployment : DeploymentParameters) (network : Network) (name : Name) :
    Except TransportConfigurationError NamesTransportStatus := do
  let validated ← validateRuntime deployment runtime
  let rendezvous ← nameRendezvous validated name
  inspectAuthenticated transaction rendezvous validated network (.name name)

/-- `inspect_validated_name_transaction`. -/
def inspectValidatedNameTransaction (transaction : Core.FullTransaction) (runtime : Core.Runtime)
    (deployment : DeploymentParameters) (network : Network) (name : Name) :
    Except TransportConfigurationError NamesTransportStatus := do
  let validated ← validateRuntime deployment runtime
  let rendezvous ← nameRendezvous validated name
  return inspectValidated transaction rendezvous validated network (.name name)

/-! ### Blocks -/

/-- `select_single_operation`. -/
def selectSingleOperation : NamesTransportStatus → NamesTransportStatus → Option Operation
  | .operation operation, .noOperation => some operation
  | .noOperation, .operation operation => some operation
  | .operation operation, .rejected .wrongApplication => some operation
  | .rejected .wrongApplication, .operation operation => some operation
  | _, _ => none

/-- One action of `inspect_exact_name_block_parts`. -/
def coreAction (entry : (Bytes32 × Bytes32) × ℕ) : Except BlockTransportError Action :=
  match U32.ofUsize entry.2, FieldElement.fromBytes entry.1.1, FieldElement.fromBytes entry.1.2 with
  | some actionIndex, .ok nullifier, .ok commitment => .ok ⟨actionIndex, nullifier, commitment⟩
  | _, _, _ => .error .invalidActionEffects

/-- The actions of a transaction. -/
def coreActions (effects : IronwoodEffects) : Except BlockTransportError (List Action) :=
  if effects.nullifiers.length ≠ effects.commitments.length then .error .invalidActionEffects
  else (effects.nullifiers.zip effects.commitments).zipIdx.mapM coreAction

/-- One transaction of `inspect_exact_name_block_parts`. -/
def exactNameTransaction (runtime : Core.Runtime) (validated : DeploymentParameters)
    (network : Network) (name : Name) (transaction : CoreTransactionContext) :
    Except BlockTransportError Transaction := do
  let actions ← coreActions transaction.ironwoodEffects
  let operation ←
    match transaction.validatedFullTransaction with
    | none => pure none
    | some _ => do
      let commit ← (inspectCommitTransaction transaction runtime validated network).mapError
        .configuration
      let named ← (inspectNameTransaction transaction runtime validated network name).mapError
        .configuration
      pure (selectSingleOperation commit named)
  return ⟨transaction.txIndex, transaction.txid, actions, operation⟩

/-- `inspect_exact_name_block_parts`. -/
def inspectExactNameBlockParts (height : U32) (hash prevHash : Bytes32)
    (coreTransactions : List CoreTransactionContext) (runtime : Core.Runtime)
    (deployment : DeploymentParameters) (network : Network) (name : Name) :
    Except BlockTransportError Block := do
  let validated ← (validateRuntime deployment runtime).mapError .configuration
  let transactions ← coreTransactions.mapM (exactNameTransaction runtime validated network name)
  return ⟨height, hash, prevHash, transactions⟩

/-- `inspect_exact_name_block`. -/
def inspectExactNameBlock (block : CoreBlockContext) (runtime : Core.Runtime)
    (deployment : DeploymentParameters) (network : Network) (name : Name) :
    Except BlockTransportError Block :=
  inspectExactNameBlockParts block.height block.blockHash block.prevBlockHash block.transactions
    runtime deployment network name

/-- `inspect_exact_name_positioned_block`. -/
def inspectExactNamePositionedBlock (block : CorePositionedBlockContext) (runtime : Core.Runtime)
    (deployment : DeploymentParameters) (network : Network) (name : Name) :
    Except BlockTransportError Block :=
  inspectExactNameBlockParts block.height block.blockHash block.prevBlockHash block.transactions
    runtime deployment network name

/-- Both views of a block give one reducer input. -/
theorem inspectExactNamePositionedBlock_eq {block : CoreBlockContext}
    {positioned : CorePositionedBlockContext} (hheight : positioned.height = block.height)
    (hhash : positioned.blockHash = block.blockHash)
    (hprevious : positioned.prevBlockHash = block.prevBlockHash)
    (htransactions : positioned.transactions = block.transactions) (runtime : Core.Runtime)
    (deployment : DeploymentParameters) (network : Network) (name : Name) :
    inspectExactNamePositionedBlock positioned runtime deployment network name =
      inspectExactNameBlock block runtime deployment network name := by
  rw [inspectExactNamePositionedBlock, inspectExactNameBlock, hheight, hhash, hprevious,
    htransactions]

/-! ### What an inspection says -/

section Classification

variable {routedFrames : List RoutedFrame} {message : MessageStatus} {envelope : Core.Envelope}
  {deployment : DeploymentParameters} {deploymentId : Bytes32} {network : Network}
  {expected : ExpectedRoute}

/-- A frame that carries value rejects the bulletin, whatever else it says. -/
theorem classifyInspection_of_nonZero {frame : RoutedFrame} (hframe : frame ∈ routedFrames)
    (hvalue : frame.value ≠ 0) :
    classifyInspection routedFrames message deployment network expected =
      .rejected .nonZeroCarrierValue := by
  rw [classifyInspection.eq_def]
  exact if_pos (List.any_eq_true.2 ⟨frame, hframe, by simpa using hvalue⟩)

/-- Frames without value do not matter. -/
theorem classifyInspection_of_zero (hzero : ∀ frame ∈ routedFrames, frame.value = 0) :
    classifyInspection routedFrames message deployment network expected =
      classifyInspection [] message deployment network expected := by
  have hany : ¬ (routedFrames.any fun frame ↦ decide (frame.value ≠ 0)) = true := by
    intro h
    obtain ⟨frame, hframe, hne⟩ := List.any_eq_true.1 h
    exact absurd (hzero frame hframe) (by simpa using hne)
  rw [classifyInspection.eq_def, classifyInspection.eq_def, if_neg hany, if_neg (by simp)]

/-- A message for another application. -/
theorem classifyInspection_of_key_ne (hid : deployment.deploymentId = .ok deploymentId)
    (hkey : Core.key envelope ≠ ⟨namesApplicationId deploymentId⟩) :
    classifyInspection [] (.message envelope) deployment network expected =
      .rejected .wrongApplication := by
  rw [classifyInspection.eq_def, if_neg (by simp), hid]
  exact if_pos hkey

/-- A message for this application is decoded, and kept on the route of its operation. -/
theorem classifyInspection_of_key_eq (hid : deployment.deploymentId = .ok deploymentId)
    (hkey : Core.key envelope = ⟨namesApplicationId deploymentId⟩) :
    classifyInspection [] (.message envelope) deployment network expected =
      match decode (Core.payload envelope) network deployment.codecParameters with
      | .error e => .rejected (.invalidOperation e)
      | .ok operation =>
        if onExpectedRoute operation expected = false then .rejected .wrongRoute
        else .operation operation := by
  rw [classifyInspection.eq_def, if_neg (by simp), hid]
  exact if_neg (not_not.2 hkey)

/-- A zero-value message of this application that decodes to an operation. -/
def Carries (routedFrames : List RoutedFrame) (message : MessageStatus)
    (deployment : DeploymentParameters) (network : Network) (operation : Operation) : Prop :=
  (∀ frame ∈ routedFrames, frame.value = 0) ∧ ∃ envelope deploymentId,
    message = .message envelope ∧ deployment.deploymentId = .ok deploymentId ∧
    Core.key envelope = ⟨namesApplicationId deploymentId⟩ ∧
    decode (Core.payload envelope) network deployment.codecParameters = .ok operation

/-- Nothing of this application: no frame with value, and no message or one for another
application. -/
def Quiet (routedFrames : List RoutedFrame) (message : MessageStatus)
    (deployment : DeploymentParameters) : Prop :=
  (∀ frame ∈ routedFrames, frame.value = 0) ∧
    (message = .notCandidate ∨ message = .noMessage ∨ ∃ envelope, message = .message envelope ∧
      ∀ deploymentId, deployment.deploymentId = .ok deploymentId →
        Core.key envelope ≠ ⟨namesApplicationId deploymentId⟩)

/-- An operation survives exactly when the bulletin carries it, on the route of that operation. -/
theorem classifyInspection_eq_operation_iff (hid : deployment.deploymentId = .ok deploymentId)
    {operation : Operation} :
    classifyInspection routedFrames message deployment network expected = .operation operation ↔
      Carries routedFrames message deployment network operation ∧
        onExpectedRoute operation expected = true := by
  by_cases hzero : ∀ frame ∈ routedFrames, frame.value = 0
  · rw [classifyInspection_of_zero hzero, Carries, and_iff_right hzero]
    rcases message with - | - | e | e | envelope
    -- only a message can carry an operation
    · simp [classifyInspection]
    · simp [classifyInspection]
    · simp [classifyInspection]
    · simp [classifyInspection]
    by_cases hkey : Core.key envelope = ⟨namesApplicationId deploymentId⟩
    · rw [classifyInspection_of_key_eq hid hkey]
      rcases hdecode : decode (Core.payload envelope) network deployment.codecParameters with
        e | decoded
      · simp [hdecode]
      · rcases hroute : onExpectedRoute decoded expected with - | -
        · simp only [hroute, if_true, reduceCtorEq, false_iff]
          rintro ⟨⟨found, id, hmessage, -, -, hfound⟩, hexpected⟩
          rw [← ApplicationMessageStatus.message.inj hmessage, hdecode] at hfound
          rw [← Except.ok.inj hfound, hroute] at hexpected
          exact absurd hexpected (by decide)
        · simp only [hroute, Bool.true_eq_false, if_false, NamesTransportStatus.operation.injEq]
          constructor
          · rintro rfl
            exact ⟨⟨envelope, deploymentId, rfl, hid, hkey, hdecode⟩, hroute⟩
          · rintro ⟨⟨found, id, hmessage, -, -, hfound⟩, -⟩
            rw [← ApplicationMessageStatus.message.inj hmessage, hdecode] at hfound
            exact Except.ok.inj hfound
    · rw [classifyInspection_of_key_ne hid hkey]
      simp [hid, hkey]
  · obtain ⟨frame, hframe, hvalue⟩ : ∃ frame ∈ routedFrames, frame.value ≠ 0 := by
      simpa using hzero
    rw [classifyInspection_of_nonZero hframe hvalue]
    exact ⟨fun h ↦ absurd h (by simp), fun h ↦ absurd h.1.1 hzero⟩

/-- A route shows nothing that concerns this application exactly when it is quiet. -/
theorem classifyInspection_quiet_iff (hid : deployment.deploymentId = .ok deploymentId) :
    (classifyInspection routedFrames message deployment network expected = .noOperation ∨
      classifyInspection routedFrames message deployment network expected =
        .rejected .wrongApplication) ↔ Quiet routedFrames message deployment := by
  by_cases hzero : ∀ frame ∈ routedFrames, frame.value = 0
  · rw [classifyInspection_of_zero hzero, Quiet, and_iff_right hzero]
    rcases message with - | - | e | e | envelope
    · simp [classifyInspection]
    · simp [classifyInspection]
    · simp [classifyInspection]
    · simp [classifyInspection]
    by_cases hkey : Core.key envelope = ⟨namesApplicationId deploymentId⟩
    · rw [classifyInspection_of_key_eq hid hkey]
      rcases decode (Core.payload envelope) network deployment.codecParameters with e | decoded
      · simp [hid, hkey]
      · rcases hroute : onExpectedRoute decoded expected with - | -
        · simp [hid, hkey, hroute]
        · simp [hid, hkey, hroute]
    · rw [classifyInspection_of_key_ne hid hkey]
      simp [hid, hkey]
  · obtain ⟨frame, hframe, hvalue⟩ : ∃ frame ∈ routedFrames, frame.value ≠ 0 := by
      simpa using hzero
    rw [classifyInspection_of_nonZero hframe hvalue]
    exact ⟨fun h ↦ absurd h (by simp), fun h ↦ absurd h.1 hzero⟩

end Classification

end Inspection

end CoppiceNames
