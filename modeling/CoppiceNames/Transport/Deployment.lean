import CoppiceNames.Reducer.Snapshot

/-!
# Deployments and routes

The identity of a Names deployment (`deployment.rs`), the application it routes to (`lib.rs`), and
the public route of a name (`NameRoute` of `protocol.rs`).

What the source takes from the Core crate and from Orchard is a parameter (`Core`): application
envelopes, CPCF framing, runtimes and rendezvous, and the inspection of a transaction at a
rendezvous. Its error types are opaque. The results below name what they rely on.
-/

namespace CoppiceNames

/-- A `u16`. -/
abbrev U16 := Fin 65536

instance U16.instNeZero : NeZero 65536 := ⟨by decide⟩

/-- `ApplicationKey`: the routing key of one application. -/
structure ApplicationKey where
  applicationId : Bytes32
  deriving DecidableEq

/-- `RoutedFrame`: a carrier note addressed to a rendezvous, by its value in zatoshis. -/
structure RoutedFrame where
  value : UInt64
  deriving DecidableEq

/-- `ApplicationMessageStatus`: what a transaction carries for a rendezvous. -/
inductive ApplicationMessageStatus (CarrierError EnvelopeError Envelope : Type)
  | notCandidate
  | noMessage
  | malformedTransport (e : CarrierError)
  | malformedEnvelope (e : EnvelopeError)
  | message (envelope : Envelope)

/-- The functions and types of Core and Orchard that the Names transport calls. -/
class Core where
  CarrierError : Type
  EnvelopeError : Type
  RendezvousError : Type
  /-- `ApplicationEnvelope`. -/
  Envelope : Type
  /-- `ValidatedFullTransaction`: full bytes, authenticated against the compact effects. -/
  FullTransaction : Type
  /-- `ValidatedCoreRuntimeParameters`. -/
  Runtime : Type
  /-- `CoreRendezvous`. -/
  Rendezvous : Type
  /-- `derive_application_id`, of a nonempty identity. -/
  deriveApplicationId : List UInt8 → Bytes32
  /-- `ApplicationEnvelope::new`. -/
  newEnvelope : ApplicationKey → List UInt8 → Except EnvelopeError Envelope
  /-- `ApplicationEnvelope::encode`. -/
  encodeEnvelope : Envelope → List UInt8
  /-- `ApplicationEnvelope::decode`. -/
  decodeEnvelope : List UInt8 → Except EnvelopeError Envelope
  /-- `ApplicationEnvelope::key`. -/
  key : Envelope → ApplicationKey
  /-- `ApplicationEnvelope::payload`. -/
  payload : Envelope → List UInt8
  /-- `transport::encode_frames`. -/
  encodeFrames : Bytes32 → List UInt8 → Except CarrierError (List (Vector UInt8 512))
  /-- `ValidatedCoreRuntimeParameters::core_runtime_id`. -/
  coreRuntimeId : Runtime → Bytes32
  /-- `CoreRendezvous::from_validated`: the generic rendezvous of a runtime. -/
  fromValidated : Runtime → Rendezvous
  /-- `CoreRendezvous::try_new`. -/
  tryNew : Vector UInt8 64 → Vector UInt8 43 → Except RendezvousError Rendezvous
  /-- `inspect_transaction_at_rendezvous`: the routed frames and the message. -/
  inspectTransactionAtRendezvous : FullTransaction → Rendezvous → Bytes32 →
    List RoutedFrame × ApplicationMessageStatus CarrierError EnvelopeError Envelope
  /-- The raw index-zero address of an incoming viewing key with a nonzero field. -/
  addressAtZero : Vector UInt8 64 → Vector UInt8 43

/-- `ProofIdentity`: the proof identities selected by a deployment. -/
structure ProofIdentity where
  reveal : Bytes32
  refresh : Bytes32
  revealKeyFingerprint : Bytes32
  refreshKeyFingerprint : Bytes32
  circuitK : UInt8
  revealProofBytes : U16
  refreshProofBytes : U16
  deriving DecidableEq

/-- `DeploymentParameters`. -/
structure DeploymentParameters where
  coreRuntimeId : Bytes32
  activationHeight : U32
  epochBlocks : U32
  windowBlocks : U32
  commitMaturityBlocks : U32
  commitTtlBlocks : U32
  leaseBlocks : U32
  cooldownBlocks : U32
  rulesetFingerprint : Bytes32
  proof : ProofIdentity
  deriving DecidableEq

/-- `DeploymentError`. -/
inductive DeploymentError
  | invalidSchedule
  | invalidProofSize
  | rulesetMismatch
  deriving DecidableEq, Repr

namespace DeploymentParameters

variable (deployment : DeploymentParameters)

/-- `DeploymentParameters::schedule`. -/
def schedule (deploymentId : Bytes32) : Parameters where
  deploymentId := deploymentId
  activationHeight := deployment.activationHeight
  epochBlocks := deployment.epochBlocks
  windowBlocks := deployment.windowBlocks
  commitMaturityBlocks := deployment.commitMaturityBlocks
  commitTtlBlocks := deployment.commitTtlBlocks
  leaseBlocks := deployment.leaseBlocks
  cooldownBlocks := deployment.cooldownBlocks

/-- The codec parameters of a deployment. -/
def codecParameters : CodecParameters where
  revealProofBytes := deployment.proof.revealProofBytes
  refreshProofBytes := deployment.proof.refreshProofBytes

section Identity

variable [Primitives]

/-- `DeploymentParameters::validate`. -/
def validate : Except DeploymentError DeploymentParameters :=
  if deployment.proof.revealProofBytes.val > maxRevealProofBytes ∨
      deployment.proof.refreshProofBytes.val > maxRefreshProofBytes then .error .invalidProofSize
  else if deployment.rulesetFingerprint ≠ CoppiceNames.rulesetFingerprint then
    .error .rulesetMismatch
  else
    match (deployment.schedule (Vector.replicate 32 1)).validate with
    | .error _ => .error .invalidSchedule
    | .ok () => .ok deployment

theorem validate_eq_ok {deployment validated : DeploymentParameters}
    (h : deployment.validate = .ok validated) :
    validated = deployment ∧ deployment.codecParameters.validate = .ok () ∧
      (deployment.schedule (Vector.replicate 32 1)).Valid := by
  rw [validate] at h
  split at h
  · exact absurd h (by simp)
  rename_i hsizes
  split at h
  · exact absurd h (by simp)
  split at h
  · exact absurd h (by simp)
  rename_i hschedule
  refine ⟨(Except.ok.inj h).symm, ?_, Parameters.valid_of_validate hschedule⟩
  rw [CodecParameters.validate]
  exact if_neg hsizes

end Identity

end DeploymentParameters

section Routes

variable [Primitives] [Core]

/-- `names_family_id`. -/
def namesFamilyId : Bytes32 :=
  Core.deriveApplicationId (lit "coppice.names")

/-- `names_application_id`. -/
def namesApplicationId (deploymentId : Bytes32) : Bytes32 :=
  Core.deriveApplicationId (lit "coppice.names" ++ [0] ++ deploymentId.toList)

namespace DeploymentParameters

variable (deployment : DeploymentParameters)

/-- `DeploymentParameters::canonical_preimage`. -/
def canonicalPreimage : Except DeploymentError (List UInt8) := do
  let validated ← deployment.validate
  return lit "CNDP" ++ validated.coreRuntimeId.toList ++ namesFamilyId.toList ++
    validated.rulesetFingerprint.toList ++ encodeU32 validated.activationHeight ++
    encodeU32 validated.epochBlocks ++ encodeU32 validated.windowBlocks ++
    encodeU32 validated.commitMaturityBlocks ++ encodeU32 validated.commitTtlBlocks ++
    encodeU32 validated.leaseBlocks ++ encodeU32 validated.cooldownBlocks ++
    beBytes 8 bondZatoshis ++ [UInt8.ofNat maxNameBytes] ++ beBytes 2 maxUaBytes ++
    validated.proof.reveal.toList ++ validated.proof.refresh.toList

/-- The length that `canonical_preimage` asserts. -/
theorem canonicalPreimage_length {deployment : DeploymentParameters} {bytes : List UInt8}
    (h : deployment.canonicalPreimage = .ok bytes) : bytes.length = 203 := by
  rw [canonicalPreimage] at h
  rcases hvalidate : deployment.validate with e | validated
  · rw [hvalidate] at h
    exact absurd h (by simp [bind, Except.bind])
  rw [hvalidate] at h
  rw [← Except.ok.inj h]
  simp [encodeU32, show (lit "CNDP").length = 4 by decide]

/-- `DeploymentParameters::deployment_id`. -/
def deploymentId : Except DeploymentError Bytes32 := do
  return Primitives.blake2b256 (lit "CoppiceNmDep") (← deployment.canonicalPreimage)

/-- A valid deployment has an identity. -/
theorem exists_deploymentId {deployment validated : DeploymentParameters}
    (h : deployment.validate = .ok validated) : ∃ id, deployment.deploymentId = .ok id := by
  rw [deploymentId, canonicalPreimage, h]
  exact ⟨_, rfl⟩

end DeploymentParameters

/-! ### Name routes -/

/-- `NameRoute`. -/
structure NameRoute where
  incomingViewingKey : Vector UInt8 64
  receiver : Vector UInt8 43
  deriving DecidableEq

/-- `NameRoute::derive`: the first counter with a nonzero viewing-key field. -/
def NameRoute.derive (deploymentId : Bytes32) (nameId : NameId) : Except ValueError NameRoute :=
  let common := deploymentId.toList ++ nameId.bytes.toList
  let dk := Primitives.blake2b256 (lit "CoppiceNmRteD") common
  let attempt (counter : ℕ) : Option NameRoute :=
    let ivk := Primitives.wideField (lit "CoppiceNmRteI") (common ++ [UInt8.ofNat counter])
    let key := dk ++ ivk.toRepr
    if ivk ≠ 0 then some ⟨key, Core.addressAtZero key⟩ else none
  match (List.range 256).findSome? attempt with
  | some route => .ok route
  | none => .error .hashToFieldExhausted

end Routes

/-! ### A small Core -/

namespace Sample

/-- A full transaction of the small Core. -/
inductive Bulletin
  /-- A COMMIT at the generic route and nothing else. -/
  | commit
  /-- The same COMMIT, and a carrier at every other route that does not parse. -/
  | ambiguous
  deriving DecidableEq

/-- The envelope of a payload under the one application of the small Core. -/
abbrev commitEnvelope : ApplicationKey × List UInt8 :=
  (⟨Vector.replicate 32 0⟩, 0 :: commitment.bytes.toList)

/-- A Core with one application, whose generic rendezvous is `none`. -/
scoped instance core : Core where
  CarrierError := Unit
  EnvelopeError := Unit
  RendezvousError := Unit
  Envelope := ApplicationKey × List UInt8
  FullTransaction := Bulletin
  Runtime := Bytes32
  Rendezvous := Option (Vector UInt8 43)
  deriveApplicationId _ := Vector.replicate 32 0
  newEnvelope key payload := .ok (key, payload)
  encodeEnvelope envelope := envelope.1.applicationId.toList ++ envelope.2
  decodeEnvelope bytes :=
    if h : 32 ≤ bytes.length then
      .ok (⟨⟨(bytes.take 32).toArray, by simpa using h⟩⟩, bytes.drop 32)
    else .error ()
  key envelope := envelope.1
  payload envelope := envelope.2
  encodeFrames _ bytes := .ok [Vector.ofFn fun i ↦ bytes.getD i.val 0]
  coreRuntimeId runtime := runtime
  fromValidated _ := none
  tryNew _ receiver := .ok (some receiver)
  inspectTransactionAtRendezvous bulletin rendezvous _ :=
    match rendezvous, bulletin with
    | none, _ => ([⟨0⟩], .message commitEnvelope)
    | some _, .commit => ([], .notCandidate)
    | some _, .ambiguous => ([⟨0⟩], .malformedTransport ())
  addressAtZero _ := Vector.replicate 43 0

/-- The runtime of the small deployment. -/
def runtime : Bytes32 :=
  Vector.replicate 32 3

/-- A deployment with the smallest durations. -/
def deployment : DeploymentParameters where
  coreRuntimeId := runtime
  activationHeight := 0
  epochBlocks := 3
  windowBlocks := 1
  commitMaturityBlocks := 1
  commitTtlBlocks := 2
  leaseBlocks := 4
  cooldownBlocks := 3
  rulesetFingerprint := rulesetFingerprint
  proof := ⟨Vector.replicate 32 0, Vector.replicate 32 0, Vector.replicate 32 1,
    Vector.replicate 32 2, 11, 3, 2⟩

theorem deployment_valid : deployment.validate = .ok deployment := by
  decide +kernel

end Sample

end CoppiceNames
