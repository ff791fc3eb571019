import CoppiceNames.Library.Outcomes
import CoppiceNames.Wallet.Checkpoint
import CoppiceNames.Wallet.Recovery
import CoppiceNames.Wallet.Signing

/-!
# From a plan to a transaction

The steps of `builder.rs` around the installation of witnesses and the signing: the Ironwood bundle
of a plan, its PCZT, the IO finalization, the proof, the signatures with their proof, and the
extraction of the consensus transaction. Each step hands its input to one role of the Orchard and
PCZT crates and checks what comes back. The roles are parameters (`Assembly`); nothing is assumed of
them here.
-/

namespace CoppiceNames

/-! ### What passes between the roles -/

/-- `RequestedActionPair`. -/
structure RequestedActionPair where
  spendIndex : ℕ
  outputIndex : ℕ
  actionIndex : ℕ

/-- Where the builder put the requested spends and outputs. -/
structure BundleMetadata where
  spendActionIndex : ℕ → Option ℕ
  outputActionIndex : ℕ → Option ℕ

/-- A PCZT with the flags of its global data. -/
structure CreatedPczt extends Pczt where
  inputsModifiable : Bool
  outputsModifiable : Bool
  shieldedModifiable : Bool

/-- The Ironwood bundle of a consensus transaction. -/
structure AuthorizedBundle where
  actions : List (Bytes32 × Bytes32)
  valueBalance : Int64
  anchor : PallasBase
  proof : List UInt8

/-- The Orchard builder and the roles of the PCZT crate beside the Updater and the Signer. An error
is its text. -/
class Assembly [Orchard] extends Roles where
  OutgoingViewingKey : Type
  Builder : Type
  Rng : Type
  /-- `orchard::pczt::Bundle`. -/
  Bundle : Type
  TransactionParameters : Type
  BranchId : Type
  ProvingKey : Type
  ConsensusTransaction : Type
  /-- The branch is `BranchId::Nu6_3`. -/
  isNu6_3 : BranchId → Bool
  /-- `Note::rho`. -/
  noteRho : Note → Bytes32
  /-- `Address::from_raw_address_bytes`. -/
  addressFromRaw : Vector UInt8 43 → Option Orchard.Address
  /-- `BundleType::UNPADDED.num_actions`, of spends and outputs. -/
  numActions : ℕ → ℕ → Except String ℕ
  /-- `Builder::new_with_anchor_deferred`. -/
  newBuilder : Except String Builder
  /-- `Builder::add_spend_unwitnessed`. -/
  addSpendUnwitnessed : Builder → FullViewingKey → Note → Except String Builder
  /-- `Builder::add_output_note`. -/
  addOutputNote : Builder → Option OutgoingViewingKey → Note → Vector UInt8 512 →
    Except String Builder
  /-- `Builder::add_output`. -/
  addOutput : Builder → Option OutgoingViewingKey → Orchard.Address → (value : ℕ) →
    Vector UInt8 512 → Except String Builder
  /-- `Builder::add_change_output`. -/
  addChangeOutput : Builder → FullViewingKey → Option OutgoingViewingKey → Orchard.Address →
    (value : ℕ) → Vector UInt8 512 → Except String Builder
  /-- `Builder::value_balance`. -/
  valueBalance : Builder → Except String Int64
  /-- `Builder::build_for_pczt_with_action_pair`. -/
  buildForPczt : Builder → Rng → RequestedActionPair → Except String (Bundle × BundleMetadata)
  /-- The nullifier and the commitment of every action of a bundle. -/
  actionPairs : Bundle → List (Bytes32 × Bytes32)
  /-- `Creator::build_from_parts`, of a V6 transaction with an Ironwood bundle only. -/
  buildFromParts : TransactionParameters → BranchId → (lockTime expiryHeight : U32) → Bundle →
    Option CreatedPczt
  /-- `IoFinalizer::finalize_io`. -/
  finalizeIo : CreatedPczt → Except String CreatedPczt
  /-- `Prover::create_ironwood_proof`. -/
  createIronwoodProof : Pczt → ProvingKey → Except String Pczt
  /-- `TransactionExtractor::extract`. -/
  extract : Pczt → Except String ConsensusTransaction
  /-- The version of a transaction is V6. -/
  isV6 : ConsensusTransaction → Bool
  txid : ConsensusTransaction → Bytes32
  ironwoodBundle : ConsensusTransaction → Option AuthorizedBundle
  /-- `Transaction::write`. -/
  writeTransaction : ConsensusTransaction → Except String (List UInt8)

namespace BuilderError

/-- An error under the context of the step; the cause is not shown. -/
def context {A : Type} (message : String) (result : Except String A) : Except BuilderError A :=
  result.mapError fun _ ↦ .failed message

/-- A value that has to be there. -/
def required {A : Type} (message : String) (value : Option A) : Except BuilderError A :=
  match value with
  | none => .error (.failed message)
  | some a => .ok a

end BuilderError

section Assembly

variable [Orchard] [Assembly]

/-! ### Plans -/

/-- `CarrierOutput`. -/
structure CarrierOutput where
  recipient : Orchard.Address
  value : ℕ
  memo : Vector UInt8 512

/-- `FundingSpend`. -/
structure FundingSpend where
  fvk : FullViewingKey
  note : Note

/-- `ChangeOutput`. -/
structure ChangeOutput where
  fvk : FullViewingKey
  ovk : Option Assembly.OutgoingViewingKey
  recipient : Orchard.Address
  value : ℕ
  memo : Vector UInt8 512

/-- `NamesIronwoodPlan`. -/
structure NamesIronwoodPlan where
  designatedFvk : FullViewingKey
  designatedSpend : Note
  successorNote : Note
  successorOvk : Option Assembly.OutgoingViewingKey
  successorMemo : Vector UInt8 512
  carrierOutputs : List CarrierOutput
  fundingSpends : List FundingSpend
  changeOutputs : List ChangeOutput
  designatedActionIndex : ℕ
  operationHeight : U32

/-- `NamesIronwoodShape`. -/
structure NamesIronwoodShape where
  realSpendCount : ℕ
  requestedOutputCount : ℕ
  carrierOutputCount : ℕ
  changeOutputCount : ℕ
  actionCount : ℕ

/-- `names_ironwood_shape_from_counts`. -/
def namesIronwoodShapeFromCounts (realSpendCount carrierOutputCount changeOutputCount
    designatedActionIndex : ℕ) : Except BuilderError NamesIronwoodShape := do
  BuilderError.ensure (0 < realSpendCount) "Names bundle must contain a designated real spend"
  let requestedOutputCount ← BuilderError.required "Names requested-output count overflowed usize"
    ((usizeCheckedAdd 1 carrierOutputCount).bind fun count ↦
      usizeCheckedAdd count changeOutputCount)
  let actionCount ← BuilderError.during "compute Names Ironwood action count: "
    (Assembly.numActions realSpendCount requestedOutputCount)
  BuilderError.ensure (designatedActionIndex < actionCount)
    "designated Names action index is outside the planned Ironwood shape"
  return ⟨realSpendCount, requestedOutputCount, carrierOutputCount, changeOutputCount, actionCount⟩

/-- `names_ironwood_shape`. -/
def namesIronwoodShape (plan : NamesIronwoodPlan) : Except BuilderError NamesIronwoodShape := do
  let realSpendCount ← BuilderError.required "Names real-spend count overflowed usize"
    (usizeCheckedAdd 1 plan.fundingSpends.length)
  namesIronwoodShapeFromCounts realSpendCount plan.carrierOutputs.length plan.changeOutputs.length
    plan.designatedActionIndex

/-! ### The bundle -/

/-- `NamesBuiltBundle`. -/
structure NamesBuiltBundle where
  bundle : Assembly.Bundle
  designatedActionIndex : ℕ
  designatedNullifier : Bytes32
  designatedCommitment : Bytes32
  actionCount : ℕ
  realSpendCount : ℕ
  requestedOutputCount : ℕ
  carrierOutputCount : ℕ
  changeOutputCount : ℕ
  ironwoodValueBalance : Int64
  operationHeight : U32

/-- `verify_designated_action`. -/
def verifyDesignatedAction (bundle : Assembly.Bundle) (actionIndex : ℕ)
    (expectedNullifier expectedCommitment : Bytes32) : Except BuilderError Unit :=
  match (Assembly.actionPairs bundle)[actionIndex]? with
  | none => .error (.failed "designated action index is outside the Ironwood bundle")
  | some action => do
    BuilderError.ensure (action.1 = expectedNullifier) "designated action nullifier mismatch"
    BuilderError.ensure (action.2 = expectedCommitment) "designated action commitment mismatch"

/-- The requests to the builder: the designated pair first, then the rest of the plan. -/
def requestActions (plan : NamesIronwoodPlan) : Except BuilderError Assembly.Builder := do
  let builder ← BuilderError.context "create deferred-anchor Ironwood builder" Assembly.newBuilder
  let builder ← BuilderError.context "add designated Names spend"
    (Assembly.addSpendUnwitnessed builder plan.designatedFvk plan.designatedSpend)
  let builder ← plan.fundingSpends.foldlM (fun builder funding ↦
    BuilderError.context "add Ironwood funding spend"
      (Assembly.addSpendUnwitnessed builder funding.fvk funding.note)) builder
  let builder ← BuilderError.context "add exact Names successor note"
    (Assembly.addOutputNote builder plan.successorOvk plan.successorNote plan.successorMemo)
  let builder ← plan.carrierOutputs.foldlM (fun builder carrier ↦
    BuilderError.context "add CPCF carrier output"
      (Assembly.addOutput builder none carrier.recipient carrier.value carrier.memo)) builder
  plan.changeOutputs.foldlM (fun builder change ↦
    BuilderError.context "add Ironwood change output"
      (Assembly.addChangeOutput builder change.fvk change.ovk change.recipient change.value
        change.memo)) builder

/-- `build_names_bundle`. -/
def buildNamesBundle (plan : NamesIronwoodPlan) (rng : Assembly.Rng) :
    Except BuilderError NamesBuiltBundle := do
  let shape ← namesIronwoodShape plan
  BuilderError.ensure (Orchard.noteValue plan.designatedSpend = bondZatoshis)
    "designated Names input is not exactly the one-ZEC bond"
  BuilderError.ensure (Orchard.noteValue plan.successorNote = bondZatoshis)
    "Names successor is not exactly the one-ZEC bond"
  BuilderError.ensure (∀ carrier ∈ plan.carrierOutputs, carrier.value = 0)
    "Names carrier outputs must be zero value"
  let designatedNullifier := Orchard.noteNullifier plan.designatedSpend plan.designatedFvk
  let designatedCommitment := Orchard.noteCommitment plan.successorNote
  BuilderError.ensure (Assembly.noteRho plan.successorNote = designatedNullifier)
    "successor rho does not derive from the designated input nullifier"
  let builder ← requestActions plan
  let ironwoodValueBalance ← BuilderError.context "compute Ironwood value balance"
    (Assembly.valueBalance builder)
  let built ← BuilderError.context "build designated-pair Ironwood PCZT bundle"
    (Assembly.buildForPczt builder rng ⟨0, 0, plan.designatedActionIndex⟩)
  BuilderError.ensure (built.2.spendActionIndex 0 = some plan.designatedActionIndex ∧
      built.2.outputActionIndex 0 = some plan.designatedActionIndex)
    "builder metadata did not preserve the designated pair"
  verifyDesignatedAction built.1 plan.designatedActionIndex designatedNullifier designatedCommitment
  BuilderError.ensure
    ((Assembly.actionPairs built.1).count (designatedNullifier, designatedCommitment) = 1)
    "designated NF/CMX pair is not unique"
  BuilderError.ensure ((Assembly.actionPairs built.1).length = shape.actionCount)
    "built Ironwood action count differs from the planned shape"
  return { bundle := built.1
           designatedActionIndex := plan.designatedActionIndex
           designatedNullifier := designatedNullifier
           designatedCommitment := designatedCommitment
           actionCount := (Assembly.actionPairs built.1).length
           realSpendCount := shape.realSpendCount
           requestedOutputCount := shape.requestedOutputCount
           carrierOutputCount := shape.carrierOutputCount
           changeOutputCount := shape.changeOutputCount
           ironwoodValueBalance := ironwoodValueBalance
           operationHeight := plan.operationHeight }

/-! ### The PCZT -/

/-- `NamesPcztPlan`. -/
structure NamesPcztPlan where
  ironwood : NamesBuiltBundle
  params : Assembly.TransactionParameters
  consensusBranchId : Assembly.BranchId
  expiryHeight : U32
  fallbackLockTime : U32

/-- `NamesBuiltPczt`. -/
structure NamesBuiltPczt extends PcztMetadata where
  pczt : CreatedPczt

/-- `build_names_pczt`. -/
def buildNamesPczt (plan : NamesPcztPlan) : Except BuilderError NamesBuiltPczt := do
  BuilderError.ensure (Assembly.isNu6_3 plan.consensusBranchId = true)
    "Names Ironwood PCZT requires the NU6.3 V6 consensus branch"
  let ironwood := plan.ironwood
  BuilderError.ensure (ironwood.operationHeight ≤ plan.expiryHeight)
    ("Names PCZT expiry height " ++ toString plan.expiryHeight.val ++
      " precedes the operation's declared height " ++ toString ironwood.operationHeight.val)
  let designatedActionIndex ←
    BuilderError.required "convert designated Names action index to Names u32"
      (U32.ofUsize ironwood.designatedActionIndex)
  let pczt ← BuilderError.required "V6 transaction parts are incompatible with PCZTs"
    (Assembly.buildFromParts plan.params plan.consensusBranchId plan.fallbackLockTime
      plan.expiryHeight ironwood.bundle)
  verifyEmbeddedDesignatedAction pczt.toPczt designatedActionIndex ironwood.designatedNullifier
    ironwood.designatedCommitment
  let layout ← embeddedActionLayout pczt.toPczt
  BuilderError.ensure (layout = Assembly.actionPairs ironwood.bundle)
    "Creator changed the Ironwood action ordering or NF/CMX fields"
  BuilderError.ensure (pczt.actions.length = ironwood.actionCount)
    "embedded Ironwood action count changed"
  let valueSum ← valueSumParts ironwood.ironwoodValueBalance
  BuilderError.ensure (pczt.valueSum = valueSum) "embedded Ironwood value balance changed"
  return { pczt := pczt
           designatedActionIndex := designatedActionIndex
           designatedNullifier := ironwood.designatedNullifier
           designatedCommitment := ironwood.designatedCommitment
           actionCount := ironwood.actionCount
           realSpendCount := ironwood.realSpendCount
           requestedOutputCount := ironwood.requestedOutputCount
           carrierOutputCount := ironwood.carrierOutputCount
           changeOutputCount := ironwood.changeOutputCount
           ironwoodValueBalance := ironwood.ironwoodValueBalance }

/-- `finalize_names_pczt_io`. -/
def finalizeNamesPcztIo (built : NamesBuiltPczt) : Except BuilderError NamesFinalizedPczt := do
  let beforeActionLayout ← embeddedActionLayout built.pczt.toPczt
  BuilderError.ensure (built.pczt.actions.length = built.actionCount)
    "pre-finalization Ironwood action count changed"
  let valueSum ← valueSumParts built.ironwoodValueBalance
  BuilderError.ensure (built.pczt.valueSum = valueSum)
    "pre-finalization Ironwood value balance changed"
  let pczt ← BuilderError.during "finalize Names PCZT IO: " (Assembly.finalizeIo built.pczt)
  BuilderError.ensure (pczt.actions.length = built.pczt.actions.length)
    "IO finalization changed the Ironwood action count"
  let layout ← embeddedActionLayout pczt.toPczt
  BuilderError.ensure (layout = beforeActionLayout)
    "IO finalization changed the ordered Ironwood action layout"
  BuilderError.ensure (pczt.valueSum = valueSum)
    "IO finalization changed the Ironwood value balance"
  BuilderError.ensure (pczt.inputsModifiable = false ∧ pczt.outputsModifiable = false ∧
      pczt.shieldedModifiable = false) "IO finalization left transaction effects modifiable"
  verifyEmbeddedDesignatedAction pczt.toPczt built.designatedActionIndex built.designatedNullifier
    built.designatedCommitment
  return { toPcztMetadata := built.toPcztMetadata, pczt := pczt.toPczt }

/-! ### The proof -/

/-- `NamesProvedPczt`. -/
structure NamesProvedPczt extends PcztMetadata where
  pczt : Pczt
  anchor : PallasBase
  witnessedActionIndices : List (Bytes32 × ℕ)
  ironwoodProofByteLen : ℕ

/-- Real spends have a witness and no signature, before and after the Prover. -/
def checkUnsigned (pczt : Pczt) (indices : List ℕ) (missing signed : String) :
    Except BuilderError Unit :=
  indices.forM fun actionIndex ↦ do
    let action ← pczt.action actionIndex
    BuilderError.ensure (action.witness.isSome = true) missing
    BuilderError.ensure (action.spendAuthSig = none) signed

/-- The checks before the Prover. -/
def checkUnproved (witnessed : NamesWitnessedPczt) : Except BuilderError Unit := do
  let pczt := witnessed.pczt
  BuilderError.ensure (pczt.zkproof = none) "Ironwood proof is already present"
  BuilderError.ensure (pczt.anchor = some witnessed.anchor.toRepr)
    "witnessed PCZT anchor does not match the expected anchor"
  BuilderError.ensure (pczt.actions.length = witnessed.actionCount)
    "pre-proof Ironwood action count changed"
  let valueSum ← valueSumParts witnessed.ironwoodValueBalance
  BuilderError.ensure (pczt.valueSum = valueSum) "pre-proof Ironwood value balance changed"
  verifyEmbeddedDesignatedAction pczt witnessed.designatedActionIndex witnessed.designatedNullifier
    witnessed.designatedCommitment
  let indices := (witnessed.witnessedActionIndices.map Prod.snd).mergeSort
  BuilderError.ensure (witnessed.witnessedActionIndices.length = witnessed.realSpendCount)
    "witness metadata does not cover exactly the real Ironwood spends"
  BuilderError.ensure (∀ window ∈ indices.zip indices.tail, window.1 ≠ window.2)
    "witness metadata contains duplicate real Ironwood spends"
  checkUnsigned pczt indices "a real Ironwood spend is missing its witness before proving"
    "a real Ironwood spend is already signed before proving"
  if witnessed.actionCount < witnessed.realSpendCount then
    .error (.failed "real spend count exceeds Ironwood action count")
  BuilderError.ensure
    ((dummySignatures pczt.actions).length = witnessed.actionCount - witnessed.realSpendCount)
    "unexpected number of pre-existing dummy Ironwood signatures"

/-- The checks after the Prover. -/
def checkProved (witnessed : NamesWitnessedPczt) (pczt : Pczt) : Except BuilderError Unit := do
  let indices := (witnessed.witnessedActionIndices.map Prod.snd).mergeSort
  BuilderError.ensure (pczt.actions.length = witnessed.pczt.actions.length)
    "Prover changed the Ironwood action count"
  let layout ← embeddedActionLayout pczt
  let beforeActionLayout ← embeddedActionLayout witnessed.pczt
  BuilderError.ensure (layout = beforeActionLayout)
    "Prover changed the ordered Ironwood action layout"
  BuilderError.ensure (pczt.valueSum = witnessed.pczt.valueSum)
    "Prover changed the Ironwood value balance"
  BuilderError.ensure (pczt.anchor = some witnessed.anchor.toRepr)
    "Prover changed the Ironwood anchor"
  verifyEmbeddedDesignatedAction pczt witnessed.designatedActionIndex witnessed.designatedNullifier
    witnessed.designatedCommitment
  checkUnsigned pczt indices "Prover removed a real Ironwood spend witness"
    "Prover signed a real Ironwood spend"
  (dummySignatures witnessed.pczt.actions).forM fun entry ↦ do
    let action ← pczt.action entry.1
    BuilderError.ensure (action.spendAuthSig = some entry.2)
      "Prover changed a dummy Ironwood spend signature"

/-- `prove_names_ironwood_pczt`. -/
def proveNamesIronwoodPczt (witnessed : NamesWitnessedPczt) (provingKey : Assembly.ProvingKey) :
    Except BuilderError NamesProvedPczt := do
  let _ ← embeddedActionLayout witnessed.pczt
  checkUnproved witnessed
  let pczt ← BuilderError.during "create Names Ironwood proof: "
    (Assembly.createIronwoodProof witnessed.pczt provingKey)
  let proofByteLen ← BuilderError.required "Prover returned no Ironwood proof"
    (pczt.zkproof.map List.length)
  BuilderError.ensure (0 < proofByteLen) "Prover returned an empty Ironwood proof"
  checkProved witnessed pczt
  return { toPcztMetadata := witnessed.toPcztMetadata
           pczt := pczt
           anchor := witnessed.anchor
           witnessedActionIndices := witnessed.witnessedActionIndices
           ironwoodProofByteLen := proofByteLen }

/-! ### The signatures -/

/-- `NamesSignedPczt`. -/
structure NamesSignedPczt extends PcztMetadata where
  pczt : Pczt
  anchor : PallasBase
  witnessedActionIndices : List (Bytes32 × ℕ)
  ironwoodProofByteLen : ℕ

omit [Orchard] [Assembly] in
/-- What a proved PCZT passes on to signing. -/
def NamesProvedPczt.signingMetadata (proved : NamesProvedPczt) : NamesSigningMetadata where
  anchor := proved.anchor
  witnessedActionIndices := proved.witnessedActionIndices
  designatedActionIndex := proved.designatedActionIndex
  designatedNullifier := proved.designatedNullifier
  designatedCommitment := proved.designatedCommitment
  actionCount := proved.actionCount
  realSpendCount := proved.realSpendCount
  ironwoodValueBalance := proved.ironwoodValueBalance

/-- `sign_names_ironwood_pczt`. -/
def signNamesIronwoodPczt (proved : NamesProvedPczt) (plan : NamesSigningPlan) :
    Except BuilderError NamesSignedPczt := do
  let proofByteLen ← BuilderError.required "proved PCZT has no Ironwood proof"
    (proved.pczt.zkproof.map List.length)
  BuilderError.ensure (0 < proofByteLen) "proved PCZT has an empty Ironwood proof"
  BuilderError.ensure (proofByteLen = proved.ironwoodProofByteLen)
    "proved PCZT Ironwood proof length differs from its metadata"
  let pczt ← signNamesIronwoodPcztCore proved.pczt proved.signingMetadata plan
  BuilderError.ensure (pczt.zkproof.map List.length = some proofByteLen)
    "signed PCZT Ironwood proof length changed"
  return { toPcztMetadata := proved.toPcztMetadata
           pczt := pczt
           anchor := proved.anchor
           witnessedActionIndices := proved.witnessedActionIndices
           ironwoodProofByteLen := proved.ironwoodProofByteLen }

/-! ### The transaction -/

/-- `NamesExtractedTransaction`. -/
structure NamesExtractedTransaction extends PcztMetadata where
  transaction : Assembly.ConsensusTransaction
  txid : Bytes32
  consensusTxSize : ℕ
  anchor : PallasBase
  ironwoodProofByteLen : ℕ
  ironwoodSpendAuthorizationCount : ℕ
  ironwoodBindingSignaturePresent : Bool

/-- The checks before the Transaction Extractor. -/
def checkUnextracted (signed : NamesSignedPczt) : Except BuilderError Unit := do
  let pczt := signed.pczt
  BuilderError.ensure (pczt.actions.length = signed.actionCount)
    "pre-extraction Ironwood action count changed"
  let valueSum ← valueSumParts signed.ironwoodValueBalance
  BuilderError.ensure (pczt.valueSum = valueSum) "pre-extraction Ironwood value balance changed"
  BuilderError.ensure (pczt.anchor = some signed.anchor.toRepr)
    "signed PCZT anchor does not match its metadata"
  verifyEmbeddedDesignatedAction pczt signed.designatedActionIndex signed.designatedNullifier
    signed.designatedCommitment
  BuilderError.ensure ((pczt.actions.filter fun action ↦ action.spendAuthSig.isSome).length =
      signed.actionCount)
    "not every Ironwood action has a spend authorization before extraction"

/-- The checks on the Ironwood bundle of the extracted transaction. -/
def checkExtracted (signed : NamesSignedPczt) (beforeActionLayout : List (Bytes32 × Bytes32))
    (proofBytes : List UInt8) (ironwood : AuthorizedBundle) : Except BuilderError Unit := do
  BuilderError.ensure (ironwood.actions.length = signed.pczt.actions.length)
    "transaction extraction changed the Ironwood action count"
  BuilderError.ensure (ironwood.actions = beforeActionLayout)
    "transaction extraction changed the ordered Ironwood action layout"
  let designatedAction ← BuilderError.required
    "extracted designated action index is outside the Ironwood bundle"
    ironwood.actions[signed.designatedActionIndex.val]?
  BuilderError.ensure (designatedAction.1 = signed.designatedNullifier)
    "extracted designated action nullifier mismatch"
  BuilderError.ensure (designatedAction.2 = signed.designatedCommitment)
    "extracted designated action commitment mismatch"
  BuilderError.ensure
    (ironwood.actions.count (signed.designatedNullifier, signed.designatedCommitment) = 1)
    "extracted designated NF/CMX pair is not unique"
  BuilderError.ensure (ironwood.valueBalance = signed.ironwoodValueBalance)
    "transaction extraction changed the Ironwood value balance"
  BuilderError.ensure (ironwood.anchor = signed.anchor)
    "transaction extraction changed the Ironwood anchor"
  BuilderError.ensure (ironwood.proof ≠ []) "extracted Ironwood proof is empty"
  BuilderError.ensure (ironwood.proof = proofBytes)
    "transaction extraction changed the Ironwood proof bytes"
  BuilderError.ensure (ironwood.actions.length = signed.actionCount)
    "extracted transaction does not contain every Ironwood spend authorization"

/-- `extract_names_transaction`. -/
def extractNamesTransaction (signed : NamesSignedPczt) :
    Except BuilderError NamesExtractedTransaction := do
  let proofBytes ← BuilderError.required "signed PCZT has no Ironwood proof" signed.pczt.zkproof
  BuilderError.ensure (proofBytes ≠ []) "signed PCZT has an empty Ironwood proof"
  BuilderError.ensure (proofBytes.length = signed.ironwoodProofByteLen)
    "signed PCZT Ironwood proof length differs from its metadata"
  let beforeActionLayout ← embeddedActionLayout signed.pczt
  checkUnextracted signed
  let transaction ← BuilderError.during "extract Names consensus transaction: "
    (Assembly.extract signed.pczt)
  BuilderError.ensure (Assembly.isV6 transaction = true) "extracted transaction is not V6"
  let ironwood ← BuilderError.required "extracted transaction has no Ironwood bundle"
    (Assembly.ironwoodBundle transaction)
  checkExtracted signed beforeActionLayout proofBytes ironwood
  let serialized ← BuilderError.context "serialize consensus transaction"
    (Assembly.writeTransaction transaction)
  return { toPcztMetadata := signed.toPcztMetadata
           transaction := transaction
           txid := Assembly.txid transaction
           consensusTxSize := serialized.length
           anchor := signed.anchor
           ironwoodProofByteLen := signed.ironwoodProofByteLen
           ironwoodSpendAuthorizationCount := ironwood.actions.length
           ironwoodBindingSignaturePresent := true }

/-! ### All steps -/

/-- What the steps after the bundle are given. -/
structure NamesAssemblyPlan where
  params : Assembly.TransactionParameters
  consensusBranchId : Assembly.BranchId
  expiryHeight : U32
  fallbackLockTime : U32
  witnesses : NamesWitnessPlan
  provingKey : Assembly.ProvingKey
  signing : NamesSigningPlan

/-- The steps in the order in which each takes what the one before returns. -/
def assembleNamesTransaction (plan : NamesIronwoodPlan) (rng : Assembly.Rng)
    (rest : NamesAssemblyPlan) : Except BuilderError NamesExtractedTransaction := do
  let ironwood ← buildNamesBundle plan rng
  let built ← buildNamesPczt
    { ironwood := ironwood
      params := rest.params
      consensusBranchId := rest.consensusBranchId
      expiryHeight := rest.expiryHeight
      fallbackLockTime := rest.fallbackLockTime }
  let finalized ← finalizeNamesPcztIo built
  let witnessed ← installNamesIronwoodWitnesses finalized rest.witnesses
  let proved ← proveNamesIronwoodPczt witnessed rest.provingKey
  let signed ← signNamesIronwoodPczt proved rest.signing
  extractNamesTransaction signed

end Assembly

end CoppiceNames
