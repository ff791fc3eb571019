import CoppiceNames.Library.Checked
import CoppiceNames.Library.Traced
import CoppiceNames.Reducer.Statement

/-!
# Recovery from a wallet seed

`recovery.rs`: the derivations that make a wallet seed and a list of names sufficient to find every
authority, COMMIT opening and bond note again. They are wallet policy and decide nothing on chain.
Keyed BLAKE2b, the Orchard keys and notes, and Poseidon are parameters.

Every derivation hashes a context with a retry counter under a key, and returns the first candidate
it can use. The derivations are traced: each keeps the keyed hash calls it makes, and its callers
take the result alone.
-/

namespace CoppiceNames

/-- Keyed BLAKE2b digests. -/
class KeyedHash where
  /-- `keyed_hash32`. -/
  keyedHash32 : (personalization key input : List UInt8) → Bytes32
  /-- `keyed_hash64`. -/
  keyedHash64 : (personalization key input : List UInt8) → Vector UInt8 64

/-- `WALLET_SEED_BYTES`. -/
def walletSeedBytes : ℕ := 64

/-- `RecoveryError`. -/
inductive RecoveryError
  | wrongSeedLength
  | authorityDerivationExhausted
  | commitDerivationExhausted
  | invalidActionNullifier
  | noteDerivationExhausted
  deriving DecidableEq, Repr

/-- `derive_names_master`. -/
def deriveNamesMaster [Primitives] (walletSeed : List UInt8) : Except RecoveryError Bytes32 :=
  if walletSeed.length ≠ walletSeedBytes then .error .wrongSeedLength
  else .ok (Primitives.blake2b256 (lit "CoppiceNmRoot_")
    (beBytes 2 walletSeed.length ++ walletSeed))

/-- The keys and notes of Orchard, and the field operations that a derivation uses. -/
class Orchard where
  SpendingKey : Type
  FullViewingKey : Type
  Address : Type
  Rho : Type
  RandomSeed : Type
  Note : Type
  /-- `SpendingKey::from_bytes`. -/
  spendingKeyFromBytes : Bytes32 → Option SpendingKey
  /-- `SpendingKey::to_bytes`. -/
  spendingKeyToBytes : SpendingKey → Bytes32
  /-- `FullViewingKey::from`. -/
  fullViewingKey : SpendingKey → FullViewingKey
  /-- `address_at(0, Scope::External)`. -/
  addressAtZero : FullViewingKey → Address
  /-- `Rho::from_bytes`. -/
  rhoFromBytes : Bytes32 → Option Rho
  /-- `RandomSeed::from_bytes`. -/
  randomSeedFromBytes : Bytes32 → Rho → Option RandomSeed
  /-- `Note::from_parts`, of version 3. -/
  noteFromParts : Address → (value : ℕ) → Rho → RandomSeed → Option Note
  /-- `Note::value`. -/
  noteValue : Note → ℕ
  /-- `ExtractedNoteCommitment::from(note.commitment())`. -/
  noteCommitment : Note → Bytes32
  /-- `Note::nullifier`. -/
  noteNullifier : Note → FullViewingKey → Bytes32
  /-- The `owner_commitment` of the circuit crate. -/
  ownerCommitment : SpendingKey → Bytes32
  /-- `pallas::Base::from_uniform_bytes`. -/
  fromUniformBytes : Vector UInt8 64 → PallasBase
  /-- `poseidon_pair`. -/
  poseidonPair : PallasBase → PallasBase → PallasBase

export Orchard (SpendingKey FullViewingKey Note)

/-! ### Keyed hash calls -/

/-- A keyed hash call. -/
structure HashCall where
  personalization : List UInt8
  key : List UInt8
  input : List UInt8
  deriving DecidableEq

section Calls

variable [KeyedHash] (personalization key input : List UInt8)

/-- `keyed_hash32`. -/
def keyedHash32 : Traced HashCall Bytes32 :=
  .call ⟨personalization, key, input⟩ (KeyedHash.keyedHash32 personalization key input)

/-- `keyed_hash64`. -/
def keyedHash64 : Traced HashCall (Vector UInt8 64) :=
  .call ⟨personalization, key, input⟩ (KeyedHash.keyedHash64 personalization key input)

end Calls

/-- The counters of a loop `for retry in 0..=u32::MAX`. -/
def retries : ℕ := 4294967296

section Derivations

variable [Primitives] [KeyedHash] [Orchard]

/-! ### Authorities -/

/-- The hash input of `derive_name_spending_key`. -/
def nameKeyInput (deploymentId : Bytes32) (name : Name) (retry : ℕ) : List UInt8 :=
  deploymentId.toList ++ ([UInt8.ofNat name.bytes.length] ++ (name.bytes ++ beBytes 4 retry))

/-- One round of `derive_name_spending_key`. -/
def nameKeyAttempt (master deploymentId : Bytes32) (name : Name) (retry : ℕ) :
    Traced HashCall (Option SpendingKey) := do
  let candidate ← keyedHash32 (lit "CoppiceNmOwner") master.toList
    (nameKeyInput deploymentId name retry)
  return Orchard.spendingKeyFromBytes candidate

/-- `derive_name_spending_key`. -/
def deriveNameSpendingKey (walletSeed : List UInt8) (deploymentId : Bytes32) (name : Name) :
    Traced HashCall (Except RecoveryError SpendingKey) :=
  match deriveNamesMaster walletSeed with
  | .error e => return .error e
  | .ok master => do
    let found ← Traced.firstRetry (nameKeyAttempt master deploymentId name) retries
    return match found with
      | some spendingKey => .ok spendingKey
      | none => .error .authorityDerivationExhausted

/-! ### COMMIT openings -/

/-- `CommitOpening`. -/
structure CommitOpening where
  commitment : Commitment
  secret : FieldElement

/-- The hash input of `derive_commit_opening`. -/
def commitSecretInput (deploymentId : Bytes32) (targetEpoch : U32) (retry : ℕ) : List UInt8 :=
  deploymentId.toList ++ (encodeU32 targetEpoch ++ beBytes 4 retry)

/-- One round of `derive_commit_opening` on its candidate. -/
def commitOpening (deploymentId : Bytes32) (nameId : NameId) (owner : FieldElement)
    (targetEpoch : U32) (candidate : PallasBase) : Option (Except RecoveryError CommitOpening) :=
  if candidate = 0 then none
  else
    match FieldElement.fromBytes candidate.toRepr with
    | .error _ => some (.error .commitDerivationExhausted)
    | .ok secret =>
      match Commitment.fromBytes
        (registrationCommitment Orchard.poseidonPair deploymentId nameId targetEpoch
          owner secret) with
      | .ok commitment => some (.ok ⟨commitment, secret⟩)
      | .error _ => none

/-- One round of `derive_commit_opening`, after the identifier and the owner. -/
def commitAttempt (spendingKey : SpendingKey) (deploymentId : Bytes32) (nameId : NameId)
    (owner : FieldElement) (targetEpoch : U32) (retry : ℕ) :
    Traced HashCall (Option (Except RecoveryError CommitOpening)) := do
  let uniform ← keyedHash64 (lit "CoppiceNmComS") (Orchard.spendingKeyToBytes spendingKey).toList
    (commitSecretInput deploymentId targetEpoch retry)
  return commitOpening deploymentId nameId owner targetEpoch (Orchard.fromUniformBytes uniform)

/-- `derive_commit_opening`. -/
def deriveCommitOpening (spendingKey : SpendingKey) (deploymentId : Bytes32) (name : Name)
    (targetEpoch : U32) : Traced HashCall (Except RecoveryError CommitOpening) :=
  match name.id with
  | .error _ => return .error .commitDerivationExhausted
  | .ok nameId =>
    match FieldElement.fromBytes (Orchard.ownerCommitment spendingKey) with
    | .error _ => return .error .commitDerivationExhausted
    | .ok owner => do
      let found ← Traced.firstRetry
        (commitAttempt spendingKey deploymentId nameId owner targetEpoch) retries
      return match found with
        | some result => result
        | none => .error .commitDerivationExhausted

omit [KeyedHash] in
theorem commitOpening_eq_ok {deploymentId : Bytes32} {nameId : NameId} {owner : FieldElement}
    {targetEpoch : U32} {candidate : PallasBase} {opening : CommitOpening}
    (h : commitOpening deploymentId nameId owner targetEpoch candidate = some (.ok opening)) :
    opening.secret.bytes ≠ PallasBase.toRepr 0 ∧
      registrationCommitment Orchard.poseidonPair deploymentId nameId targetEpoch owner
        opening.secret = opening.commitment.bytes := by
  rw [commitOpening] at h
  split at h
  · exact absurd h (by simp)
  rename_i hnonzero
  split at h
  · exact absurd h (by simp)
  rename_i secret hsecret
  split at h
  · rename_i commitment hcommitment
    obtain rfl := Except.ok.inj (Option.some.inj h)
    refine ⟨fun hzero ↦ hnonzero (PallasBase.toRepr_inj ?_),
      (Commitment.fromBytes_eq_ok hcommitment).symm⟩
    rw [← FieldElement.fromBytes_eq_ok hsecret, ← hzero]
  · exact absurd h (by simp)

/-- **A COMMIT opening opens its COMMIT**, with a nonzero secret. -/
theorem deriveCommitOpening_opens {spendingKey : SpendingKey} {deploymentId : Bytes32} {name : Name}
    {targetEpoch : U32} {opening : CommitOpening}
    (h : (deriveCommitOpening spendingKey deploymentId name targetEpoch).result = .ok opening) :
    opening.secret.bytes ≠ PallasBase.toRepr 0 ∧ ∃ nameId owner, name.id = .ok nameId ∧
      FieldElement.fromBytes (Orchard.ownerCommitment spendingKey) = .ok owner ∧
      registrationCommitment Orchard.poseidonPair deploymentId nameId targetEpoch owner
        opening.secret = opening.commitment.bytes := by
  rw [deriveCommitOpening] at h
  split at h
  · exact absurd h (by simp)
  rename_i nameId hid
  split at h
  · exact absurd h (by simp)
  rename_i owner howner
  rw [Traced.result_bind, Traced.result_pure] at h
  split at h
  · rename_i result hretry
    obtain ⟨retry, -, hattempt⟩ := Traced.firstRetry_eq_some hretry
    rw [h, commitAttempt, Traced.result_bind, Traced.result_pure] at hattempt
    obtain ⟨hnonzero, hopens⟩ := commitOpening_eq_ok hattempt
    exact ⟨hnonzero, nameId, owner, hid, howner, hopens⟩
  · exact absurd h (by simp)

/-! ### Bond notes -/

/-- The hash input of `derive_bond_note`. -/
def bondNoteInput (deploymentId : Bytes32) (operationTag : UInt8) (reference : List UInt8)
    (targetEpoch : U32) (ua : Bytes32) (actionIndex : U32) (actionNullifier : FieldElement)
    (retry : ℕ) : List UInt8 :=
  deploymentId.toList ++ ([operationTag] ++ (reference ++ (encodeU32 targetEpoch ++ (ua.toList ++
    (encodeU32 actionIndex ++ (actionNullifier.bytes.toList ++ beBytes 4 retry))))))

/-- One round of `derive_bond_note`, after the note's `rho`. -/
def bondNoteAttempt (spendingKey : SpendingKey) (deploymentId : Bytes32) (operationTag : UInt8)
    (reference : List UInt8) (targetEpoch : U32) (ua : CanonicalUa) (actionIndex : U32)
    (actionNullifier : FieldElement) (rho : Orchard.Rho) (retry : ℕ) :
    Traced HashCall (Option Note) := do
  let candidate ← keyedHash32 (lit "CoppiceNmNote_")
    (Orchard.spendingKeyToBytes spendingKey).toList
    (bondNoteInput deploymentId operationTag reference targetEpoch (uaField ua).toRepr actionIndex
      actionNullifier retry)
  return (Orchard.randomSeedFromBytes candidate rho).bind
    (Orchard.noteFromParts (Orchard.addressAtZero (Orchard.fullViewingKey spendingKey)) bondZatoshis
      rho)

/-- `derive_bond_note`. -/
def deriveBondNote (spendingKey : SpendingKey) (deploymentId : Bytes32) (operationTag : UInt8)
    (reference : List UInt8) (targetEpoch : U32) (ua : CanonicalUa) (actionIndex : U32)
    (actionNullifier : FieldElement) : Traced HashCall (Except RecoveryError Note) :=
  match Orchard.rhoFromBytes actionNullifier.bytes with
  | none => return .error .invalidActionNullifier
  | some rho => do
    let found ← Traced.firstRetry (bondNoteAttempt spendingKey deploymentId operationTag reference
      targetEpoch ua actionIndex actionNullifier rho) retries
    return match found with
      | some note => .ok note
      | none => .error .noteDerivationExhausted

/-- `derive_reveal_bond_note`. -/
def deriveRevealBondNote (spendingKey : SpendingKey) (deploymentId : Bytes32)
    (commitRef : CommitRef) (targetEpoch : U32) (ua : CanonicalUa) (actionIndex : U32)
    (actionNullifier : FieldElement) : Traced HashCall (Except RecoveryError Note) :=
  deriveBondNote spendingKey deploymentId 1 (commitRefBytes commitRef) targetEpoch ua actionIndex
    actionNullifier

/-- `derive_refresh_bond_note`. -/
def deriveRefreshBondNote (spendingKey : SpendingKey) (deploymentId : Bytes32)
    (predecessorRef : StateRef) (targetEpoch : U32) (ua : CanonicalUa) (actionIndex : U32)
    (actionNullifier : FieldElement) : Traced HashCall (Except RecoveryError Note) :=
  deriveBondNote spendingKey deploymentId 2 (stateRefBytes predecessorRef) targetEpoch ua
    actionIndex actionNullifier

omit [Primitives] [KeyedHash] in
/-- A bond note of a spending key with the `rho` of a nullifier: it has the bond value, and the
key's own address. -/
def IsBondNote (spendingKey : SpendingKey) (nullifier : FieldElement) (note : Note) : Prop :=
  ∃ rho seed, Orchard.rhoFromBytes nullifier.bytes = some rho ∧
    Orchard.noteFromParts (Orchard.addressAtZero (Orchard.fullViewingKey spendingKey)) bondZatoshis
      rho seed = some note

/-- **A derived bond note is one.** -/
theorem isBondNote_of_deriveBondNote {spendingKey : SpendingKey} {deploymentId : Bytes32}
    {operationTag : UInt8} {reference : List UInt8} {targetEpoch : U32} {ua : CanonicalUa}
    {actionIndex : U32} {actionNullifier : FieldElement} {note : Note}
    (h : (deriveBondNote spendingKey deploymentId operationTag reference targetEpoch ua actionIndex
      actionNullifier).result = .ok note) : IsBondNote spendingKey actionNullifier note := by
  rw [deriveBondNote] at h
  split at h
  · exact absurd h (by simp)
  rename_i rho hrho
  rw [Traced.result_bind, Traced.result_pure] at h
  split at h
  · rename_i found hretry
    obtain ⟨retry, -, hattempt⟩ := Traced.firstRetry_eq_some hretry
    obtain ⟨seed, -, hnote⟩ := Option.bind_eq_some_iff.1 hattempt
    obtain rfl : found = note := Except.ok.inj h
    exact ⟨rho, seed, hrho, hnote⟩
  · exact absurd h (by simp)

end Derivations

/-! ### A small Orchard -/

namespace Sample

/-- A keyed hash that adds the bytes up. -/
scoped instance keyedHash : KeyedHash where
  keyedHash32 personalization key input :=
    Vector.replicate 32 ((personalization ++ key ++ input).foldl (· + ·) 0)
  keyedHash64 personalization key input :=
    Vector.replicate 64 ((personalization ++ key ++ input).foldl (· + ·) 0)

/-- The seed of the sample wallet. -/
def walletSeed : List UInt8 :=
  List.replicate 64 7

/-- An Orchard whose notes are numbers: note `n` has the commitment `2 * n` and the nullifier
`2 * n + 1`, and a bond note is the number its randomness starts with. -/
scoped instance orchard : Orchard where
  SpendingKey := Bytes32
  FullViewingKey := Bytes32
  Address := Unit
  Rho := Bytes32
  RandomSeed := Bytes32
  Note := UInt8
  spendingKeyFromBytes := some
  spendingKeyToBytes key := key
  fullViewingKey key := key
  addressAtZero _ := ()
  rhoFromBytes := some
  randomSeedFromBytes bytes _ := some bytes
  noteFromParts _ _ rho _ := some rho[0]
  noteValue _ := bondZatoshis
  noteCommitment note := PallasBase.toRepr (.ofU64 (2 * note.toNat))
  noteNullifier note _ := PallasBase.toRepr (.ofU64 (2 * note.toNat + 1))
  ownerCommitment _ := PallasBase.toRepr 1
  fromUniformBytes uniform := if uniform[0] % 2 = 0 then 0 else 1
  poseidonPair _ _ := 1

end Sample

end CoppiceNames
