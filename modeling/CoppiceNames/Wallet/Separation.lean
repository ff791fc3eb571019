import CoppiceNames.Wallet.Recovery

/-!
# Hash inputs of derivations

Every derivation of `recovery.rs` hashes its context without framing: fixed-width fields around one
name or one reference. The personalization tells the derivations apart, and the position of the
length or tag byte tells where the variable part ends. So a keyed hash call determines its
derivation, context and retry (`derivations_separated`).

The calls are those that the derivations make: each round of a loop makes one, so the call of a
retry stands at that position among the calls of its derivation.
-/

namespace CoppiceNames

/-- The reference of a bond note: what its REVEAL or REFRESH refers to. -/
inductive BondReference
  | reveal (commitRef : CommitRef)
  | refresh (predecessorRef : StateRef)
  deriving DecidableEq

namespace BondReference

/-- The operation tag of a bond note. -/
def operationTag : BondReference → UInt8
  | reveal _ => 1
  | refresh _ => 2

/-- The reference bytes of a bond note. -/
def bytes : BondReference → List UInt8
  | reveal commitRef => commitRefBytes commitRef
  | refresh predecessorRef => stateRefBytes predecessorRef

end BondReference

/-! ### Inputs are injective -/

theorem Name.bytes_inj {a b : Name} (h : a.bytes = b.bytes) : a = b := by
  obtain ⟨bytes, hwell⟩ := a
  obtain rfl : bytes = b.bytes := h
  rfl

theorem FieldElement.bytes_inj {a b : FieldElement} (h : a.bytes = b.bytes) : a = b := by
  obtain ⟨bytes, hcanonical⟩ := a
  obtain rfl : bytes = b.bytes := h
  rfl

namespace BondReference

/-- The tag fixes the width of the reference. -/
theorem bytes_length_eq {a b : BondReference} (h : a.operationTag = b.operationTag) :
    a.bytes.length = b.bytes.length := by
  rcases a with commitRef | predecessorRef
  · rcases b with commitRef' | predecessorRef'
    · simp [bytes, commitRefBytes, encodeU32]
    · exact absurd h (by simp [operationTag])
  · rcases b with commitRef' | predecessorRef'
    · exact absurd h (by simp [operationTag])
    · simp [bytes, stateRefBytes, encodeU32]

theorem eq_of_bytes {a b : BondReference} (htag : a.operationTag = b.operationTag)
    (hbytes : a.bytes = b.bytes) : a = b := by
  rcases a with commitRef | predecessorRef
  · rcases b with commitRef' | predecessorRef'
    · rw [commitRefBytes_inj hbytes]
    · exact absurd htag (by simp [operationTag])
  · rcases b with commitRef' | predecessorRef'
    · exact absurd htag (by simp [operationTag])
    · rw [stateRefBytes_inj hbytes]

end BondReference

section Inputs

variable {id id' : Bytes32} {retry retry' : ℕ} (hretry : retry < retries)
  (hretry' : retry' < retries)

include hretry hretry'

theorem nameKeyInput_inj {name name' : Name}
    (h : nameKeyInput id name retry = nameKeyInput id' name' retry') :
    id = id' ∧ name = name' ∧ retry = retry' := by
  -- the fields around the name have fixed widths, so the names have one length
  have hlength : name.bytes.length = name'.bytes.length := by
    have h := congrArg List.length h
    simp only [nameKeyInput, List.length_append, List.length_singleton, Vector.length_toList,
      beBytes_length] at h
    omega
  obtain ⟨hid, h⟩ := List.append_inj h (by simp)
  obtain ⟨-, h⟩ := List.append_inj h rfl
  obtain ⟨hname, hcounter⟩ := List.append_inj h hlength
  exact ⟨Vector.toList_inj.1 hid, Name.bytes_inj hname, beBytes_inj hretry hretry' hcounter⟩

theorem commitSecretInput_inj {epoch epoch' : U32}
    (h : commitSecretInput id epoch retry = commitSecretInput id' epoch' retry') :
    id = id' ∧ epoch = epoch' ∧ retry = retry' := by
  obtain ⟨hid, h⟩ := List.append_inj h (by simp)
  obtain ⟨hepoch, hcounter⟩ := List.append_inj h (by simp [encodeU32])
  exact ⟨Vector.toList_inj.1 hid, encodeU32_inj hepoch, beBytes_inj hretry hretry' hcounter⟩

theorem bondNoteInput_inj {reference reference' : BondReference} {epoch epoch' : U32}
    {ua ua' : Bytes32} {actionIndex actionIndex' : U32} {nullifier nullifier' : FieldElement}
    (h : bondNoteInput id reference.operationTag reference.bytes epoch ua actionIndex nullifier
        retry =
      bondNoteInput id' reference'.operationTag reference'.bytes epoch' ua' actionIndex' nullifier'
        retry') :
    id = id' ∧ reference = reference' ∧ epoch = epoch' ∧ ua = ua' ∧ actionIndex = actionIndex' ∧
      nullifier = nullifier' ∧ retry = retry' := by
  obtain ⟨hid, h⟩ := List.append_inj h (by simp)
  -- the tag stands at a fixed offset, and fixes the width of the reference after it
  obtain ⟨htag, h⟩ := List.append_inj h rfl
  have htag := List.head_eq_of_cons_eq htag
  obtain ⟨hreference, h⟩ := List.append_inj h (BondReference.bytes_length_eq htag)
  obtain ⟨hepoch, h⟩ := List.append_inj h (by simp [encodeU32])
  obtain ⟨hua, h⟩ := List.append_inj h (by simp)
  obtain ⟨hindex, h⟩ := List.append_inj h (by simp [encodeU32])
  obtain ⟨hnullifier, hcounter⟩ := List.append_inj h (by simp)
  exact ⟨Vector.toList_inj.1 hid, BondReference.eq_of_bytes htag hreference, encodeU32_inj hepoch,
    Vector.toList_inj.1 hua, encodeU32_inj hindex,
    FieldElement.bytes_inj (Vector.toList_inj.1 hnullifier),
    beBytes_inj hretry hretry' hcounter⟩

end Inputs

/-! ### Derivations and their calls -/

/-- The three derivations that hash under a key. -/
inductive DerivationKind
  | nameKey
  | commitSecret
  | bondNote
  deriving DecidableEq

/-- The personalization of a derivation. -/
def DerivationKind.personalization : DerivationKind → List UInt8
  | nameKey => lit "CoppiceNmOwner"
  | commitSecret => lit "CoppiceNmComS"
  | bondNote => lit "CoppiceNmNote_"

theorem DerivationKind.personalization_injective :
    Function.Injective DerivationKind.personalization := by
  intro a b h
  cases a <;> cases b <;> first | rfl | exact absurd h (by decide)

section Separation

variable [Primitives] [KeyedHash] [Orchard]

/-- A derivation, with its context. -/
inductive Derivation
  | nameKey (walletSeed : List UInt8) (deploymentId : Bytes32) (name : Name)
  | commitSecret (spendingKey : SpendingKey) (deploymentId : Bytes32) (name : Name)
    (targetEpoch : U32)
  | bondNote (spendingKey : SpendingKey) (deploymentId : Bytes32) (reference : BondReference)
    (targetEpoch : U32) (ua : CanonicalUa) (actionIndex : U32) (actionNullifier : FieldElement)

namespace Derivation

/-- The keyed hash calls of a derivation, by retry. -/
def calls : Derivation → List HashCall
  | nameKey walletSeed deploymentId name =>
    (deriveNameSpendingKey walletSeed deploymentId name).calls
  | commitSecret spendingKey deploymentId name targetEpoch =>
    (deriveCommitOpening spendingKey deploymentId name targetEpoch).calls
  | bondNote spendingKey deploymentId (.reveal commitRef) targetEpoch ua actionIndex nullifier =>
    (deriveRevealBondNote spendingKey deploymentId commitRef targetEpoch ua actionIndex
      nullifier).calls
  | bondNote spendingKey deploymentId (.refresh predecessorRef) targetEpoch ua actionIndex
      nullifier =>
    (deriveRefreshBondNote spendingKey deploymentId predecessorRef targetEpoch ua actionIndex
      nullifier).calls

omit [Primitives] [KeyedHash] in
/-- One derivation in one context. The seed behind a spending key enters as the master secret, which
is the key of the call; the name of a COMMIT does not enter its secret, and the address of a bond
note enters as a field. -/
inductive SameContext [Primitives] : Derivation → Derivation → Prop
  | nameKey {walletSeed walletSeed' : List UInt8} {deploymentId : Bytes32} {name : Name} :
      deriveNamesMaster walletSeed = deriveNamesMaster walletSeed' →
      SameContext (nameKey walletSeed deploymentId name) (nameKey walletSeed' deploymentId name)
  | commitSecret {spendingKey : SpendingKey} {deploymentId : Bytes32} {name name' : Name}
      {targetEpoch : U32} :
      SameContext (commitSecret spendingKey deploymentId name targetEpoch)
        (commitSecret spendingKey deploymentId name' targetEpoch)
  | bondNote {spendingKey : SpendingKey} {deploymentId : Bytes32} {reference : BondReference}
      {targetEpoch : U32} {ua ua' : CanonicalUa} {actionIndex : U32}
      {actionNullifier : FieldElement} : uaField ua = uaField ua' →
      SameContext
        (bondNote spendingKey deploymentId reference targetEpoch ua actionIndex actionNullifier)
        (bondNote spendingKey deploymentId reference targetEpoch ua' actionIndex actionNullifier)

/-- The kind of a derivation. -/
def kind : Derivation → DerivationKind
  | nameKey .. => .nameKey
  | commitSecret .. => .commitSecret
  | bondNote .. => .bondNote

end Derivation

/-! ### What a retry hashes -/

section Calls

variable {spendingKey : SpendingKey} {deploymentId : Bytes32} {name : Name} {targetEpoch : U32}
  {retry : ℕ} {call : HashCall}

theorem deriveNameSpendingKey_calls {walletSeed : List UInt8}
    (h : (deriveNameSpendingKey walletSeed deploymentId name).calls[retry]? = some call) :
    retry < retries ∧ ∃ master, deriveNamesMaster walletSeed = .ok master ∧
      call = ⟨lit "CoppiceNmOwner", master.toList, nameKeyInput deploymentId name retry⟩ := by
  rw [deriveNameSpendingKey] at h
  split at h
  · exact absurd h (by simp)
  rename_i master hmaster
  rw [Traced.calls_bind, Traced.calls_pure, List.append_nil] at h
  obtain ⟨hlt, hcall⟩ := Traced.firstRetry_calls (fun _ ↦ rfl) h
  exact ⟨hlt, master, hmaster, hcall⟩

theorem deriveCommitOpening_calls
    (h : (deriveCommitOpening spendingKey deploymentId name targetEpoch).calls[retry]? =
      some call) :
    retry < retries ∧ call = ⟨lit "CoppiceNmComS",
      (Orchard.spendingKeyToBytes spendingKey).toList,
      commitSecretInput deploymentId targetEpoch retry⟩ := by
  rw [deriveCommitOpening] at h
  split at h
  · exact absurd h (by simp)
  split at h
  · exact absurd h (by simp)
  rw [Traced.calls_bind, Traced.calls_pure, List.append_nil] at h
  exact Traced.firstRetry_calls (fun _ ↦ rfl) h

theorem deriveBondNote_calls {operationTag : UInt8} {reference : List UInt8} {ua : CanonicalUa}
    {actionIndex : U32} {nullifier : FieldElement}
    (h : (deriveBondNote spendingKey deploymentId operationTag reference targetEpoch ua actionIndex
      nullifier).calls[retry]? = some call) :
    retry < retries ∧ call = ⟨lit "CoppiceNmNote_",
      (Orchard.spendingKeyToBytes spendingKey).toList,
      bondNoteInput deploymentId operationTag reference targetEpoch (uaField ua).toRepr actionIndex
        nullifier retry⟩ := by
  rw [deriveBondNote] at h
  split at h
  · exact absurd h (by simp)
  rw [Traced.calls_bind, Traced.calls_pure, List.append_nil] at h
  exact Traced.firstRetry_calls (fun _ ↦ rfl) h

end Calls

namespace Derivation

theorem calls_bondNote (spendingKey : SpendingKey) (deploymentId : Bytes32)
    (reference : BondReference) (targetEpoch : U32) (ua : CanonicalUa) (actionIndex : U32)
    (nullifier : FieldElement) :
    (bondNote spendingKey deploymentId reference targetEpoch ua actionIndex nullifier).calls =
      (deriveBondNote spendingKey deploymentId reference.operationTag reference.bytes targetEpoch ua
        actionIndex nullifier).calls := by
  cases reference with
  | reveal commitRef => rfl
  | refresh predecessorRef => rfl

variable {retry retry' : ℕ} {call : HashCall}

theorem personalization_eq {derivation : Derivation} (h : derivation.calls[retry]? = some call) :
    call.personalization = derivation.kind.personalization := by
  cases derivation with
  | nameKey walletSeed deploymentId name =>
    obtain ⟨-, master, -, rfl⟩ := deriveNameSpendingKey_calls h
    rfl
  | commitSecret spendingKey deploymentId name targetEpoch =>
    obtain ⟨-, rfl⟩ := deriveCommitOpening_calls h
    rfl
  | bondNote spendingKey deploymentId reference targetEpoch ua actionIndex nullifier =>
    rw [calls_bondNote] at h
    obtain ⟨-, rfl⟩ := deriveBondNote_calls h
    rfl

/-! ### Separation -/

theorem nameKey_sameContext {seed seed' : List UInt8} {id id' : Bytes32} {name name' : Name}
    (ha : (nameKey seed id name).calls[retry]? = some call)
    (hb : (nameKey seed' id' name').calls[retry']? = some call) :
    SameContext (nameKey seed id name) (nameKey seed' id' name') ∧ retry = retry' := by
  obtain ⟨hretry, master, hmaster, rfl⟩ := deriveNameSpendingKey_calls ha
  obtain ⟨hretry', master', hmaster', hsame⟩ := deriveNameSpendingKey_calls hb
  obtain ⟨-, hkey, hinput⟩ := HashCall.mk.inj hsame
  obtain ⟨rfl, rfl, hcounter⟩ := nameKeyInput_inj hretry hretry' hinput
  obtain rfl : master = master' := Vector.toList_inj.1 hkey
  exact ⟨.nameKey (hmaster.trans hmaster'.symm), hcounter⟩

theorem commitSecret_sameContext (hkeys : Function.Injective Orchard.spendingKeyToBytes)
    {spendingKey spendingKey' : SpendingKey} {id id' : Bytes32} {name name' : Name}
    {epoch epoch' : U32} (ha : (commitSecret spendingKey id name epoch).calls[retry]? = some call)
    (hb : (commitSecret spendingKey' id' name' epoch').calls[retry']? = some call) :
    SameContext (commitSecret spendingKey id name epoch)
      (commitSecret spendingKey' id' name' epoch') ∧ retry = retry' := by
  obtain ⟨hretry, rfl⟩ := deriveCommitOpening_calls ha
  obtain ⟨hretry', hsame⟩ := deriveCommitOpening_calls hb
  obtain ⟨-, hkey, hinput⟩ := HashCall.mk.inj hsame
  obtain ⟨rfl, rfl, hcounter⟩ := commitSecretInput_inj hretry hretry' hinput
  obtain rfl : spendingKey = spendingKey' := hkeys (Vector.toList_inj.1 hkey)
  exact ⟨.commitSecret, hcounter⟩

theorem bondNote_sameContext (hkeys : Function.Injective Orchard.spendingKeyToBytes)
    {spendingKey spendingKey' : SpendingKey} {id id' : Bytes32}
    {reference reference' : BondReference} {epoch epoch' : U32} {ua ua' : CanonicalUa}
    {actionIndex actionIndex' : U32} {nullifier nullifier' : FieldElement}
    (ha : (bondNote spendingKey id reference epoch ua actionIndex nullifier).calls[retry]? =
      some call)
    (hb : (bondNote spendingKey' id' reference' epoch' ua' actionIndex'
      nullifier').calls[retry']? = some call) :
    SameContext (bondNote spendingKey id reference epoch ua actionIndex nullifier)
      (bondNote spendingKey' id' reference' epoch' ua' actionIndex' nullifier') ∧
        retry = retry' := by
  rw [calls_bondNote] at ha hb
  obtain ⟨hretry, rfl⟩ := deriveBondNote_calls ha
  obtain ⟨hretry', hsame⟩ := deriveBondNote_calls hb
  obtain ⟨-, hkey, hinput⟩ := HashCall.mk.inj hsame
  obtain ⟨rfl, rfl, rfl, hua, rfl, rfl, hcounter⟩ := bondNoteInput_inj hretry hretry' hinput
  obtain rfl : spendingKey = spendingKey' := hkeys (Vector.toList_inj.1 hkey)
  exact ⟨.bondNote (PallasBase.toRepr_inj hua), hcounter⟩

/-- A REVEAL bond note and a REFRESH bond note never share an input, whatever the keys. -/
theorem input_ne_of_bondNotes {spendingKey spendingKey' : SpendingKey} {id id' : Bytes32}
    {commitRef : CommitRef} {predecessorRef : StateRef} {epoch epoch' : U32} {ua ua' : CanonicalUa}
    {actionIndex actionIndex' : U32} {nullifier nullifier' : FieldElement} {call' : HashCall}
    (ha : (bondNote spendingKey id (.reveal commitRef) epoch ua actionIndex
      nullifier).calls[retry]? = some call)
    (hb : (bondNote spendingKey' id' (.refresh predecessorRef) epoch' ua' actionIndex'
      nullifier').calls[retry']? = some call') : call.input ≠ call'.input := by
  rw [calls_bondNote] at ha hb
  obtain ⟨hretry, rfl⟩ := deriveBondNote_calls ha
  obtain ⟨hretry', rfl⟩ := deriveBondNote_calls hb
  intro hinput
  obtain ⟨-, hreference, -⟩ := bondNoteInput_inj hretry hretry' hinput
  exact absurd hreference (by simp)

/-- The calls of a derivation differ in their counters only. -/
theorem exists_context (a : Derivation) : ∃ personalization key context,
    ∀ (i : ℕ) (call : HashCall), a.calls[i]? = some call →
      i < 2 ^ 32 ∧ call = ⟨personalization, key, context ++ beBytes 4 i⟩ := by
  cases a with
  | nameKey walletSeed deploymentId name =>
    rcases hmaster : deriveNamesMaster walletSeed with e | master
    · refine ⟨[], [], [], fun i call h ↦ ?_⟩
      obtain ⟨-, master, hok, -⟩ := deriveNameSpendingKey_calls h
      exact absurd (hok.symm.trans hmaster) (by simp)
    · refine ⟨lit "CoppiceNmOwner", master.toList, deploymentId.toList ++
        ([UInt8.ofNat name.bytes.length] ++ name.bytes), fun i call h ↦ ?_⟩
      obtain ⟨hlt, master', hok, rfl⟩ := deriveNameSpendingKey_calls h
      obtain rfl : master' = master := Except.ok.inj (hok.symm.trans hmaster)
      exact ⟨hlt, by simp only [nameKeyInput, List.append_assoc]⟩
  | commitSecret spendingKey deploymentId name targetEpoch =>
    refine ⟨lit "CoppiceNmComS", (Orchard.spendingKeyToBytes spendingKey).toList,
      deploymentId.toList ++ encodeU32 targetEpoch, fun i call h ↦ ?_⟩
    obtain ⟨hlt, rfl⟩ := deriveCommitOpening_calls h
    exact ⟨hlt, by simp only [commitSecretInput, List.append_assoc]⟩
  | bondNote spendingKey deploymentId reference targetEpoch ua actionIndex nullifier =>
    refine ⟨lit "CoppiceNmNote_", (Orchard.spendingKeyToBytes spendingKey).toList,
      deploymentId.toList ++ ([reference.operationTag] ++ (reference.bytes ++
        (encodeU32 targetEpoch ++ ((uaField ua).toRepr.toList ++ (encodeU32 actionIndex ++
          nullifier.bytes.toList))))), fun i call h ↦ ?_⟩
    rw [calls_bondNote] at h
    obtain ⟨hlt, rfl⟩ := deriveBondNote_calls h
    exact ⟨hlt, by simp only [bondNoteInput, List.append_assoc]⟩

end Derivation

/-- **Derivations never share a hash input across contexts.** If two derivations make one keyed hash
call, under any retries, they are one derivation in one context, and the retries are the same; and a
REVEAL bond note never shares an input with a REFRESH bond note, whatever the keys. The `i`th call
of a derivation is the one of retry `i`: it ends with that counter, after what all of them share. -/
theorem derivations_separated :
    (Function.Injective Orchard.spendingKeyToBytes →
      ∀ (a b : Derivation) (i j : ℕ) (call : HashCall), a.calls[i]? = some call →
        b.calls[j]? = some call → a.SameContext b ∧ i = j) ∧
    (∀ (key key' : SpendingKey) (id id' : Bytes32) (commitRef : CommitRef)
      (predecessorRef : StateRef) (epoch epoch' : U32) (ua ua' : CanonicalUa)
      (actionIndex actionIndex' : U32) (nullifier nullifier' : FieldElement) (i j : ℕ)
      (call call' : HashCall),
      (Derivation.bondNote key id (.reveal commitRef) epoch ua actionIndex nullifier).calls[i]? =
        some call →
      (Derivation.bondNote key' id' (.refresh predecessorRef) epoch' ua' actionIndex'
        nullifier').calls[j]? = some call' →
      call.input ≠ call'.input) ∧
    ∀ a : Derivation, ∃ personalization key context, ∀ (i : ℕ) (call : HashCall),
      a.calls[i]? = some call →
        i < 2 ^ 32 ∧ call = ⟨personalization, key, context ++ beBytes 4 i⟩ := by
  refine ⟨fun hkeys a b i j call ha hb ↦ ?_, ?_, fun a ↦ ?_⟩
  · have hkind : a.kind = b.kind := DerivationKind.personalization_injective
      ((Derivation.personalization_eq ha).symm.trans (Derivation.personalization_eq hb))
    rcases a with _ | _ | _
    · rcases b with _ | _ | _
      · exact Derivation.nameKey_sameContext ha hb
      · nomatch hkind
      · nomatch hkind
    · rcases b with _ | _ | _
      · nomatch hkind
      · exact Derivation.commitSecret_sameContext hkeys ha hb
      · nomatch hkind
    · rcases b with _ | _ | _
      · nomatch hkind
      · nomatch hkind
      · exact Derivation.bondNote_sameContext hkeys ha hb
  · intro key key' id id' commitRef predecessorRef epoch epoch' ua ua' actionIndex actionIndex'
      nullifier nullifier' i j call call' ha hb
    exact Derivation.input_ne_of_bondNotes ha hb
  · exact a.exists_context

end Separation

namespace Sample

/-- The COMMIT secret of a name, of one key in one epoch. -/
def commitSecretOf (name : Name) : Derivation :=
  .commitSecret (Vector.replicate 32 5 : Bytes32) (Vector.replicate 32 0) name 4

/-- The COMMIT secrets of two names come from the same calls, so they are one derivation in one
context. The first candidate is zero, so there are two calls; and they differ. -/
theorem derivations_separated_retry : ∃ first second : HashCall,
    (commitSecretOf alice).calls = [first, second] ∧
    (commitSecretOf ⟨lit "bob", by decide⟩).calls = [first, second] ∧
    (commitSecretOf alice).SameContext (commitSecretOf ⟨lit "bob", by decide⟩) ∧
    first ≠ second := by
  have hlength : (commitSecretOf alice).calls.length = 2 := by decide +kernel
  have hbob : (commitSecretOf ⟨lit "bob", by decide⟩).calls = (commitSecretOf alice).calls := by
    decide +kernel
  obtain ⟨first, second, halice⟩ := List.length_eq_two.1 hlength
  rw [halice] at hbob
  refine ⟨first, second, halice, hbob, ?_, fun hsame ↦ ?_⟩
  · exact (derivations_separated.1 Function.injective_id _ _ 1 1 second
      (by rw [halice]; rfl) (by rw [hbob]; rfl)).1
  · obtain ⟨-, hretry⟩ := derivations_separated.1 Function.injective_id (commitSecretOf alice)
      (commitSecretOf alice) 0 1 first (by rw [halice]; rfl) (by rw [halice, hsame]; rfl)
    exact absurd hretry (by decide)

end Sample

end CoppiceNames
