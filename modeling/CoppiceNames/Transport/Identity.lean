import CoppiceNames.Library.Checked
import CoppiceNames.Library.Collisions
import CoppiceNames.Transport.Deployment

/-!
# The identity of a deployment

`ProofIdentity::derive` and what `deployment_id` binds. The identity of a deployment hashes a layout
of fixed width. The layout holds the two verifier identities, which hash a second layout each, under
personalizations and tags of their own. Equal identities come from equal deployments, or from a
collision among the byte strings that were hashed for them (`deployment_id_binds`).
-/

namespace CoppiceNames

/-- `VERIFIER_SUITE_MANIFEST`. -/
def verifierSuiteManifest : List UInt8 :=
  lit "CNSUITE" ++ [0] ++
    lit "curve=VestaAffine;scalar=PallasBase;commitment=Halo2IPA;" ++
    lit "transcript=Blake2bRead+Blake2bWrite/Halo2-Transcript;challenge=Challenge255;" ++
    lit "strategy=SingleVerifier;proof_encoding=zakura-halo2-proofs-1.0.0-Blake2bWrite;" ++
    lit "zakura-halo2-proofs=1.0.0/7c1386cce49a4d9e4a1b1e32fbbb3ba34d23e53dcefd700ee976d736d72f302a;" ++
    lit "zakura-pasta-curves=1.0.0/9b11ea111779520b119485fdb0fd69c3ec96b6eaab0e1bfbfb3f9cb67c55815a"

section Identity

variable [Primitives]

/-! ### Verifier identities -/

/-- `verifier_suite_id`. -/
def verifierSuiteId : Bytes32 :=
  Primitives.blake2b256 (lit "CoppiceNmVrfS") verifierSuiteManifest

omit [Primitives] in
/-- The manifest that `verifier_id` hashes. -/
def verifierManifest (operationTag : UInt8) (suiteId : Bytes32) (circuitK : UInt8)
    (proofBytes : U16) (keyFingerprint : Bytes32) : List UInt8 :=
  lit "CNVERIFY" ++ ([operationTag] ++ (suiteId.toList ++ ([circuitK] ++
    (beBytes 2 proofBytes.val ++ keyFingerprint.toList))))

/-- `verifier_id`. -/
def verifierId (personalization : List UInt8) (operationTag : UInt8) (suiteId : Bytes32)
    (circuitK : UInt8) (proofBytes : U16) (keyFingerprint : Bytes32) : Bytes32 :=
  Primitives.blake2b256 personalization
    (verifierManifest operationTag suiteId circuitK proofBytes keyFingerprint)

namespace ProofIdentity

/-- `ProofIdentity::derive`. -/
def derive (circuitK : UInt8) (revealProofBytes refreshProofBytes : U16)
    (revealKeyFingerprint refreshKeyFingerprint : Bytes32) : ProofIdentity where
  reveal := verifierId (lit "CoppiceNmReVr") 1 verifierSuiteId circuitK revealProofBytes
    revealKeyFingerprint
  refresh := verifierId (lit "CoppiceNmRfVr") 2 verifierSuiteId circuitK refreshProofBytes
    refreshKeyFingerprint
  revealKeyFingerprint := revealKeyFingerprint
  refreshKeyFingerprint := refreshKeyFingerprint
  circuitK := circuitK
  revealProofBytes := revealProofBytes
  refreshProofBytes := refreshProofBytes

/-- The identity was derived from a proof configuration. -/
def Derived (proof : ProofIdentity) : Prop :=
  ∃ circuitK revealProofBytes refreshProofBytes revealKeyFingerprint refreshKeyFingerprint,
    proof = derive circuitK revealProofBytes refreshProofBytes revealKeyFingerprint
      refreshKeyFingerprint

end ProofIdentity

/-! ### What an identity hashes -/

variable [Core]

/-- The byte strings that are hashed for the identity of a deployment, with their
personalizations. -/
def DeploymentParameters.hashInputs (deployment : DeploymentParameters) :
    List (List UInt8 × List UInt8) :=
  [(lit "CoppiceNmDep", deployment.canonicalPreimage.toOption.getD []),
    (lit "CoppiceNmReVr", verifierManifest 1 verifierSuiteId deployment.proof.circuitK
      deployment.proof.revealProofBytes deployment.proof.revealKeyFingerprint),
    (lit "CoppiceNmRfVr", verifierManifest 2 verifierSuiteId deployment.proof.circuitK
      deployment.proof.refreshProofBytes deployment.proof.refreshKeyFingerprint)]

theorem mem_hashInputs {deployment : DeploymentParameters} {bytes : List UInt8}
    (h : deployment.canonicalPreimage = .ok bytes) :
    (lit "CoppiceNmDep", bytes) ∈ deployment.hashInputs := by
  rw [DeploymentParameters.hashInputs, h]
  exact List.mem_cons_self

/-! ### Layouts are injective -/

omit [Primitives] [Core] in
theorem verifierManifest_inj {tag : UInt8} {suite : Bytes32} {k k' : UInt8} {size size' : U16}
    {key key' : Bytes32}
    (h : verifierManifest tag suite k size key = verifierManifest tag suite k' size' key') :
    k = k' ∧ size = size' ∧ key = key' := by
  have h := List.append_cancel_left (List.append_cancel_left (List.append_cancel_left h))
  obtain ⟨hk, h⟩ := List.append_inj h (by simp)
  obtain ⟨hsize, hkey⟩ := List.append_inj h (by simp)
  exact ⟨(List.cons.inj hk).1, Fin.ext (beBytes_inj size.isLt size'.isLt hsize),
    Vector.toList_inj.1 hkey⟩

theorem validate_of_canonicalPreimage {deployment : DeploymentParameters} {bytes : List UInt8}
    (h : deployment.canonicalPreimage = .ok bytes) : deployment.validate = .ok deployment := by
  rw [DeploymentParameters.canonicalPreimage] at h
  rcases hvalidate : deployment.validate with e | validated
  · rw [hvalidate] at h
    exact absurd h (by simp [bind, Except.bind])
  · rw [(DeploymentParameters.validate_eq_ok hvalidate).1]

/-- The preimage of a deployment determines everything but the proof configuration, of which it has
the verifier identities. -/
theorem canonicalPreimage_inj {a b : DeploymentParameters} {bytes : List UInt8}
    (ha : a.canonicalPreimage = .ok bytes) (hb : b.canonicalPreimage = .ok bytes) :
    { a with proof := b.proof } = b ∧ a.proof.reveal = b.proof.reveal ∧
      a.proof.refresh = b.proof.refresh := by
  have hvalidate := validate_of_canonicalPreimage ha
  have hvalidate' := validate_of_canonicalPreimage hb
  rw [DeploymentParameters.canonicalPreimage, hvalidate] at ha
  rw [DeploymentParameters.canonicalPreimage, hvalidate'] at hb
  have h := Except.ok.inj (ha.trans hb.symm)
  simp only [List.append_assoc] at h
  -- fixed widths, from the left
  have h := List.append_cancel_left h
  obtain ⟨hruntime, h⟩ := List.append_inj h (by simp)
  have h := List.append_cancel_left h
  obtain ⟨hruleset, h⟩ := List.append_inj h (by simp)
  obtain ⟨hactivation, h⟩ := List.append_inj h (by simp [encodeU32])
  obtain ⟨hepoch, h⟩ := List.append_inj h (by simp [encodeU32])
  obtain ⟨hwindow, h⟩ := List.append_inj h (by simp [encodeU32])
  obtain ⟨hmaturity, h⟩ := List.append_inj h (by simp [encodeU32])
  obtain ⟨httl, h⟩ := List.append_inj h (by simp [encodeU32])
  obtain ⟨hlease, h⟩ := List.append_inj h (by simp [encodeU32])
  obtain ⟨hcooldown, h⟩ := List.append_inj h (by simp [encodeU32])
  have h := List.append_cancel_left (List.append_cancel_left (List.append_cancel_left h))
  obtain ⟨hreveal, hrefresh⟩ := List.append_inj h (by simp)
  obtain ⟨coreRuntimeId, activationHeight, epochBlocks, windowBlocks, commitMaturityBlocks,
    commitTtlBlocks, leaseBlocks, cooldownBlocks, rulesetFingerprint, proof⟩ := a
  obtain rfl : coreRuntimeId = b.coreRuntimeId := Vector.toList_inj.1 hruntime
  obtain rfl : activationHeight = b.activationHeight := encodeU32_inj hactivation
  obtain rfl : epochBlocks = b.epochBlocks := encodeU32_inj hepoch
  obtain rfl : windowBlocks = b.windowBlocks := encodeU32_inj hwindow
  obtain rfl : commitMaturityBlocks = b.commitMaturityBlocks := encodeU32_inj hmaturity
  obtain rfl : commitTtlBlocks = b.commitTtlBlocks := encodeU32_inj httl
  obtain rfl : leaseBlocks = b.leaseBlocks := encodeU32_inj hlease
  obtain rfl : cooldownBlocks = b.cooldownBlocks := encodeU32_inj hcooldown
  obtain rfl : rulesetFingerprint = b.rulesetFingerprint := Vector.toList_inj.1 hruleset
  exact ⟨rfl, Vector.toList_inj.1 hreveal, Vector.toList_inj.1 hrefresh⟩

omit [Core] in
/-- The verifier identities of a derived proof identity. -/
theorem ProofIdentity.Derived.verifiers {proof : ProofIdentity} (h : proof.Derived) :
    proof.reveal = Primitives.blake2b256 (lit "CoppiceNmReVr") (verifierManifest 1 verifierSuiteId
        proof.circuitK proof.revealProofBytes proof.revealKeyFingerprint) ∧
      proof.refresh = Primitives.blake2b256 (lit "CoppiceNmRfVr") (verifierManifest 2
        verifierSuiteId proof.circuitK proof.refreshProofBytes proof.refreshKeyFingerprint) := by
  obtain ⟨circuitK, revealProofBytes, refreshProofBytes, revealKey, refreshKey, rfl⟩ := h
  exact ⟨rfl, rfl⟩


omit [Core] in
/-- A derived proof identity is determined by its configuration. -/
theorem ProofIdentity.Derived.eq_of_configuration {proof proof' : ProofIdentity}
    (h : proof.Derived) (h' : proof'.Derived) (hk : proof.circuitK = proof'.circuitK)
    (hreveal : proof.revealProofBytes = proof'.revealProofBytes)
    (hrefresh : proof.refreshProofBytes = proof'.refreshProofBytes)
    (hrevealKey : proof.revealKeyFingerprint = proof'.revealKeyFingerprint)
    (hrefreshKey : proof.refreshKeyFingerprint = proof'.refreshKeyFingerprint) :
    proof = proof' := by
  obtain ⟨circuitK, revealBytes, refreshBytes, revealKey, refreshKey, rfl⟩ := h
  obtain ⟨circuitK', revealBytes', refreshBytes', revealKey', refreshKey', rfl⟩ := h'
  obtain rfl : circuitK = circuitK' := hk
  obtain rfl : revealBytes = revealBytes' := hreveal
  obtain rfl : refreshBytes = refreshBytes' := hrefresh
  obtain rfl : revealKey = revealKey' := hrevealKey
  obtain rfl : refreshKey = refreshKey' := hrefreshKey
  rfl

/-- **A deployment identity binds every input.** Two deployments with derived proof identities and
one deployment identity are the same in every field, or two different byte strings that were hashed
for them have one hash under one personalization. The preimage of a valid deployment has 203
bytes. -/
theorem deployment_id_binds :
    (∀ {a b : DeploymentParameters} {id : Bytes32}, a.proof.Derived → b.proof.Derived →
      a.deploymentId = .ok id → b.deploymentId = .ok id →
      a = b ∨ Collision Primitives.blake2b256 a.hashInputs b.hashInputs) ∧
    ∀ {deployment validated : DeploymentParameters}, deployment.validate = .ok validated →
      ∃ bytes, deployment.canonicalPreimage = .ok bytes ∧ bytes.length = 203 := by
  refine ⟨fun {a b id} ha hb hid hid' ↦ ?_, fun {deployment validated} hvalidate ↦ ?_⟩
  · rw [DeploymentParameters.deploymentId, Except.bind_eq_ok_iff] at hid hid'
    obtain ⟨bytes, hpreimage, hid⟩ := hid
    obtain ⟨bytes', hpreimage', hid'⟩ := hid'
    have hhash := Except.ok.inj (hid.trans hid'.symm)
    obtain ⟨hreveal, hrefresh⟩ := ha.verifiers
    obtain ⟨hreveal', hrefresh'⟩ := hb.verifiers
    rcases eq_or_collision hhash (mem_hashInputs hpreimage) (mem_hashInputs hpreimage') with
      rfl | hcollision
    swap
    · exact Or.inr hcollision
    -- the layouts agree, and so do the verifier identities in them
    obtain ⟨hsame, hverifier, hverifier'⟩ := canonicalPreimage_inj hpreimage hpreimage'
    rw [hreveal, hreveal'] at hverifier
    rw [hrefresh, hrefresh'] at hverifier'
    have hmanifest : _ ∨ Collision Primitives.blake2b256 a.hashInputs b.hashInputs :=
      eq_or_collision hverifier (List.mem_cons_of_mem _ List.mem_cons_self)
        (List.mem_cons_of_mem _ List.mem_cons_self)
    have hmanifest' : _ ∨ Collision Primitives.blake2b256 a.hashInputs b.hashInputs :=
      eq_or_collision hverifier' (by simp [DeploymentParameters.hashInputs])
        (by simp [DeploymentParameters.hashInputs])
    rcases hmanifest with hmanifest | hcollision
    swap
    · exact Or.inr hcollision
    rcases hmanifest' with hmanifest' | hcollision
    swap
    · exact Or.inr hcollision
    obtain ⟨hk, hsize, hkey⟩ := verifierManifest_inj hmanifest
    obtain ⟨-, hsize', hkey'⟩ := verifierManifest_inj hmanifest'
    rw [← hsame, ← ha.eq_of_configuration hb hk hsize hsize' hkey hkey']
    exact Or.inl rfl
  · obtain ⟨id, hid⟩ := DeploymentParameters.exists_deploymentId hvalidate
    rw [DeploymentParameters.deploymentId, Except.bind_eq_ok_iff] at hid
    obtain ⟨bytes, hpreimage, -⟩ := hid
    exact ⟨bytes, hpreimage, DeploymentParameters.canonicalPreimage_length hpreimage⟩

end Identity

namespace Sample

/-- The deployment of a runtime, with the smallest durations and a derived proof identity. -/
def derivedDeployment (runtime : Bytes32) : DeploymentParameters :=
  { deployment with
    coreRuntimeId := runtime
    proof := .derive 11 3 2 (Vector.replicate 32 1) (Vector.replicate 32 2) }

/-- The tabulated hash does not tell deployments apart. -/
theorem deployment_id_binds_derived :
    Collision Primitives.blake2b256 (derivedDeployment (Vector.replicate 32 3)).hashInputs
      (derivedDeployment (Vector.replicate 32 4)).hashInputs ∧
    ∃ bytes, (derivedDeployment (Vector.replicate 32 3)).canonicalPreimage = .ok bytes ∧
      bytes.length = 203 := by
  have hderived : ∀ runtime, (derivedDeployment runtime).proof.Derived := fun runtime ↦
    ⟨11, 3, 2, _, _, rfl⟩
  have hid : (derivedDeployment (Vector.replicate 32 3)).deploymentId.toOption =
      some (Vector.replicate 32 0) := by
    decide +kernel
  have hid' : (derivedDeployment (Vector.replicate 32 4)).deploymentId.toOption =
      some (Vector.replicate 32 0) := by
    decide +kernel
  rw [Except.toOption_eq_some_iff] at hid hid'
  obtain ⟨hbinds, hlength⟩ := deployment_id_binds
  refine ⟨(hbinds (hderived _) (hderived _) hid hid').resolve_left (by decide), ?_⟩
  have hvalid : (derivedDeployment (Vector.replicate 32 3)).validate =
      .ok (derivedDeployment (Vector.replicate 32 3)) := by
    decide +kernel
  exact hlength hvalid

end Sample

end CoppiceNames
