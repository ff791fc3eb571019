import CoppiceNames.Library.Collisions
import CoppiceNames.Protocol.Codec
import CoppiceNames.Reducer.State

/-!
# The digest of a proof statement

`statement.rs`: the one field element that a proof circuit exposes. The public facts of a statement
are field elements, integers, and hashes of length-framed byte strings; Poseidon folds them from a
domain constant of the operation. Poseidon on two field elements is a parameter.

Equal digests of different statements exhibit a collision among what was hashed for them
(`statement_digest_binds`). A REVEAL folds twelve facts and a REFRESH fourteen, so a REVEAL and a
REFRESH that agree on the last facts would have hashed a pair to a domain constant.
-/

namespace CoppiceNames

/-! ### Domains -/

/-- `COMMIT_DOMAIN`. -/
def commitDomain : PallasBase := .ofU64 0x4e32434f4d4d4954

/-- `REVEAL_DOMAIN`. -/
def revealDomain : PallasBase := .ofU64 0x4e3252455645414c

/-- `REFRESH_DOMAIN`. -/
def refreshDomain : PallasBase := .ofU64 0x4e32524546525348

theorem revealDomain_ne_refreshDomain : revealDomain ≠ refreshDomain := by
  decide

section Statement

variable [Primitives]

/-! ### Byte fields -/

/-- The framed bytes of `bytes_field`: a big-endian `u32` length, then the bytes. -/
def frame (bytes : List UInt8) : List UInt8 :=
  beBytes 4 bytes.length ++ bytes

/-- `bytes_field`. The values it is given are shorter than `2 ^ 32` bytes. -/
def bytesField (personalization bytes : List UInt8) : PallasBase :=
  Primitives.wideField personalization (frame bytes)

/-- The bytes behind `commit_ref_field`. -/
def commitRefBytes (reference : CommitRef) : List UInt8 :=
  encodeU32 reference.height ++ (encodeU32 reference.txIndex ++ reference.txid.toList)

/-- The bytes behind `state_ref_field`. -/
def stateRefBytes (reference : StateRef) : List UInt8 :=
  encodeU32 reference.height ++ (encodeU32 reference.txIndex ++ (reference.txid.toList ++
    encodeU32 reference.actionIndex))

/-- `deployment_field`. -/
def deploymentField (deploymentId : Bytes32) : PallasBase :=
  bytesField (lit "CoppiceNmDplF") deploymentId.toList

/-- `ua_field`. -/
def uaField (ua : CanonicalUa) : PallasBase :=
  bytesField (lit "CoppiceNmUA") ua.value.bytes

/-- `commit_ref_field`. -/
def commitRefField (reference : CommitRef) : PallasBase :=
  bytesField (lit "CoppiceNmCRef") (commitRefBytes reference)

/-- `state_ref_field`. -/
def stateRefField (reference : StateRef) : PallasBase :=
  bytesField (lit "CoppiceNmSRef") (stateRefBytes reference)

/-! ### Folds -/

omit [Primitives] in
/-- `fold`. -/
def fold (poseidonPair : PallasBase → PallasBase → PallasBase) {n : ℕ} (domain : PallasBase)
    (fields : Vector PallasBase n) : PallasBase :=
  fields.toList.foldl poseidonPair domain

/-- `RevealStatement::fields`. -/
def RevealStatement.fields (statement : RevealStatement) : Vector PallasBase 12 :=
  #v[deploymentField statement.deploymentId,
    .ofU64 1,
    statement.nameId.field,
    .ofU64 statement.inclusionEpoch.val,
    statement.commitment.field,
    commitRefField statement.commitRef,
    uaField statement.ua,
    .ofU64 statement.actionIndex.val,
    statement.actionNullifier.field,
    statement.actionCommitment.field,
    statement.successorFutureNf.field,
    .ofU64 bondZatoshis]

/-- `RefreshStatement::fields`. -/
def RefreshStatement.fields (statement : RefreshStatement) : Vector PallasBase 14 :=
  #v[deploymentField statement.deploymentId,
    .ofU64 2,
    statement.nameId.field,
    stateRefField statement.predecessorRef,
    statement.predecessorCommitment.field,
    statement.predecessorFutureNf.field,
    .ofU64 statement.predecessorEpoch.val,
    .ofU64 statement.inclusionEpoch.val,
    uaField statement.ua,
    .ofU64 statement.actionIndex.val,
    statement.actionNullifier.field,
    statement.actionCommitment.field,
    statement.successorFutureNf.field,
    .ofU64 bondZatoshis]

variable (poseidonPair : PallasBase → PallasBase → PallasBase)

/-- `RevealStatement::digest`. -/
def RevealStatement.digest (statement : RevealStatement) : Bytes32 :=
  (fold poseidonPair revealDomain statement.fields).toRepr

/-- `RefreshStatement::digest`. -/
def RefreshStatement.digest (statement : RefreshStatement) : Bytes32 :=
  (fold poseidonPair refreshDomain statement.fields).toRepr

/-- `registration_commitment`. -/
def registrationCommitment (deploymentId : Bytes32) (nameId : NameId) (epoch : U32)
    (ownerCommit secret : FieldElement) : Bytes32 :=
  (fold poseidonPair commitDomain
    #v[deploymentField deploymentId,
      nameId.field,
      .ofU64 epoch.val,
      ownerCommit.field,
      secret.field]).toRepr

/-! ### What a digest hashes -/

/-- A statement of either kind. -/
inductive Statement
  | reveal (statement : RevealStatement)
  | refresh (statement : RefreshStatement)
  deriving DecidableEq

namespace Statement

/-- The digest of a statement of either kind. -/
def digest : Statement → Bytes32
  | reveal statement => statement.digest poseidonPair
  | refresh statement => statement.digest poseidonPair

/-- The inputs of `poseidon_pair`. -/
def pairInputs : Statement → List (PallasBase × PallasBase)
  | reveal statement => foldInputs poseidonPair revealDomain statement.fields.toList
  | refresh statement => foldInputs poseidonPair refreshDomain statement.fields.toList

/-- The inputs of `wide_field`, with their personalizations. -/
def wideInputs : Statement → List (List UInt8 × List UInt8)
  | reveal statement =>
    [(lit "CoppiceNmDplF", frame statement.deploymentId.toList),
      (lit "CoppiceNmCRef", frame (commitRefBytes statement.commitRef)),
      (lit "CoppiceNmUA", frame statement.ua.value.bytes)]
  | refresh statement =>
    [(lit "CoppiceNmDplF", frame statement.deploymentId.toList),
      (lit "CoppiceNmSRef", frame (stateRefBytes statement.predecessorRef)),
      (lit "CoppiceNmUA", frame statement.ua.value.bytes)]

end Statement

/-! ### Encodings are injective -/

omit [Primitives] in
theorem frame_inj {a b : List UInt8} (h : frame a = frame b) : a = b :=
  (List.append_inj h (by simp)).2

omit [Primitives] in
theorem commitRefBytes_inj {a b : CommitRef} (h : commitRefBytes a = commitRefBytes b) : a = b := by
  obtain ⟨height, txIndex, txid⟩ := a
  obtain ⟨hheight, h⟩ := List.append_inj h (by simp [encodeU32])
  obtain ⟨hindex, htxid⟩ := List.append_inj h (by simp [encodeU32])
  obtain rfl : height = b.height := encodeU32_inj hheight
  obtain rfl : txIndex = b.txIndex := encodeU32_inj hindex
  obtain rfl : txid = b.txid := Vector.toList_inj.1 htxid
  rfl

omit [Primitives] in
theorem stateRefBytes_inj {a b : StateRef} (h : stateRefBytes a = stateRefBytes b) : a = b := by
  obtain ⟨height, txIndex, txid, actionIndex⟩ := a
  obtain ⟨hheight, h⟩ := List.append_inj h (by simp [encodeU32])
  obtain ⟨hindex, h⟩ := List.append_inj h (by simp [encodeU32])
  obtain ⟨htxid, haction⟩ := List.append_inj h (by simp)
  obtain rfl : height = b.height := encodeU32_inj hheight
  obtain rfl : txIndex = b.txIndex := encodeU32_inj hindex
  obtain rfl : txid = b.txid := Vector.toList_inj.1 htxid
  obtain rfl : actionIndex = b.actionIndex := encodeU32_inj haction
  rfl

theorem CanonicalUa.bytes_inj {a b : CanonicalUa} (h : a.value.bytes = b.value.bytes) : a = b := by
  obtain ⟨⟨bytes, hutf8⟩, hcanonical⟩ := a
  obtain ⟨⟨bytes', hutf8'⟩, hcanonical'⟩ := b
  obtain rfl : bytes = bytes' := h
  rfl

omit [Primitives] in
theorem ofU64_val_inj {a b : U32}
    (h : PallasBase.ofU64 a.val = PallasBase.ofU64 b.val) : a = b :=
  Fin.ext (PallasBase.ofU64_inj (Nat.lt_trans a.isLt (by decide))
    (Nat.lt_trans b.isLt (by decide)) h)

/-- Byte strings with one field are the same, or they collide. -/
theorem bytesField_eq {personalization bytes bytes' : List UInt8}
    {inputs inputs' : List (List UInt8 × List UInt8)}
    (h : bytesField personalization bytes = bytesField personalization bytes')
    (hbytes : (personalization, frame bytes) ∈ inputs)
    (hbytes' : (personalization, frame bytes') ∈ inputs') :
    bytes = bytes' ∨ Collision Primitives.wideField inputs inputs' := by
  rw [bytesField, bytesField] at h
  exact (eq_or_collision h hbytes hbytes').imp frame_inj id

/-- Three byte strings with the same fields are the same, or two of them collide. -/
theorem bytesFields_eq {first second third a b c a' b' c' : List UInt8}
    (ha : bytesField first a = bytesField first a')
    (hb : bytesField second b = bytesField second b')
    (hc : bytesField third c = bytesField third c') :
    (a = a' ∧ b = b' ∧ c = c') ∨ Collision Primitives.wideField
      [(first, frame a), (second, frame b), (third, frame c)]
      [(first, frame a'), (second, frame b'), (third, frame c')] := by
  refine (bytesField_eq ha (by simp) (by simp)).elim (fun hfirst ↦ ?_) Or.inr
  refine (bytesField_eq hb (by simp) (by simp)).elim (fun hsecond ↦ ?_) Or.inr
  exact (bytesField_eq hc (by simp) (by simp)).imp (fun hthird ↦ ⟨hfirst, hsecond, hthird⟩) id

/-- REVEAL statements with the same fields are the same, or byte strings behind the fields
collide. -/
theorem RevealStatement.eq_or_collide {a b : RevealStatement}
    (h : a.fields.toList = b.fields.toList) :
    a = b ∨ Collision Primitives.wideField (Statement.reveal a).wideInputs
      (Statement.reveal b).wideInputs := by
  simp only [fields, Vector.toList_mk, List.cons.injEq, and_true, true_and] at h
  obtain ⟨hdeployment, hname, hepoch, hcommitment, hreference, hua, hindex, hnullifier, haction,
    hsuccessor⟩ := h
  refine (bytesFields_eq hdeployment hreference hua).imp
    (fun ⟨hdeployment, hreference, hua⟩ ↦ ?_) id
  obtain ⟨deploymentId, nameId, inclusionEpoch, commitment, commitRef, ua, actionIndex,
    actionNullifier, actionCommitment, successorFutureNf⟩ := a
  obtain rfl : deploymentId = b.deploymentId := Vector.toList_inj.1 hdeployment
  obtain rfl : nameId = b.nameId := NameId.field_inj hname
  obtain rfl : inclusionEpoch = b.inclusionEpoch := ofU64_val_inj hepoch
  obtain rfl : commitment = b.commitment := Commitment.field_inj hcommitment
  obtain rfl : commitRef = b.commitRef := commitRefBytes_inj hreference
  obtain rfl : ua = b.ua := CanonicalUa.bytes_inj hua
  obtain rfl : actionIndex = b.actionIndex := ofU64_val_inj hindex
  obtain rfl : actionNullifier = b.actionNullifier := FieldElement.field_inj hnullifier
  obtain rfl : actionCommitment = b.actionCommitment := FieldElement.field_inj haction
  obtain rfl : successorFutureNf = b.successorFutureNf := FieldElement.field_inj hsuccessor
  rfl

/-- REFRESH statements with the same fields are the same, or byte strings behind the fields
collide. -/
theorem RefreshStatement.eq_or_collide {a b : RefreshStatement}
    (h : a.fields.toList = b.fields.toList) :
    a = b ∨ Collision Primitives.wideField (Statement.refresh a).wideInputs
      (Statement.refresh b).wideInputs := by
  simp only [fields, Vector.toList_mk, List.cons.injEq, and_true, true_and] at h
  obtain ⟨hdeployment, hname, hreference, hcommitment, hfuture, hpredecessor, hepoch, hua, hindex,
    hnullifier, haction, hsuccessor⟩ := h
  refine (bytesFields_eq hdeployment hreference hua).imp
    (fun ⟨hdeployment, hreference, hua⟩ ↦ ?_) id
  obtain ⟨deploymentId, nameId, predecessorRef, predecessorCommitment, predecessorFutureNf,
    predecessorEpoch, inclusionEpoch, ua, actionIndex, actionNullifier, actionCommitment,
    successorFutureNf⟩ := a
  obtain rfl : deploymentId = b.deploymentId := Vector.toList_inj.1 hdeployment
  obtain rfl : nameId = b.nameId := NameId.field_inj hname
  obtain rfl : predecessorRef = b.predecessorRef := stateRefBytes_inj hreference
  obtain rfl : predecessorCommitment = b.predecessorCommitment :=
    FieldElement.field_inj hcommitment
  obtain rfl : predecessorFutureNf = b.predecessorFutureNf := FieldElement.field_inj hfuture
  obtain rfl : predecessorEpoch = b.predecessorEpoch := ofU64_val_inj hpredecessor
  obtain rfl : inclusionEpoch = b.inclusionEpoch := ofU64_val_inj hepoch
  obtain rfl : ua = b.ua := CanonicalUa.bytes_inj hua
  obtain rfl : actionIndex = b.actionIndex := ofU64_val_inj hindex
  obtain rfl : actionNullifier = b.actionNullifier := FieldElement.field_inj hnullifier
  obtain rfl : actionCommitment = b.actionCommitment := FieldElement.field_inj haction
  obtain rfl : successorFutureNf = b.successorFutureNf := FieldElement.field_inj hsuccessor
  rfl

namespace Statement

variable {poseidonPair}

/-- The domain constant and the fields of a statement. -/
def folded : Statement → PallasBase × List PallasBase
  | reveal statement => (revealDomain, statement.fields.toList)
  | refresh statement => (refreshDomain, statement.fields.toList)

theorem folded_domain (statement : Statement) :
    statement.folded.1 = revealDomain ∨ statement.folded.1 = refreshDomain := by
  rcases statement with statement | statement
  · exact Or.inl rfl
  · exact Or.inr rfl

theorem digest_eq (statement : Statement) : statement.digest poseidonPair =
    (statement.folded.2.foldl poseidonPair statement.folded.1).toRepr := by
  rcases statement with statement | statement
  · rfl
  · rfl

theorem pairInputs_eq (statement : Statement) : statement.pairInputs poseidonPair =
    foldInputs poseidonPair statement.folded.1 statement.folded.2 := by
  rcases statement with statement | statement
  · rfl
  · rfl

/-- Statements that fold the same fields from the same domain. -/
theorem eq_or_collide {a b : Statement} (h : a.folded = b.folded) :
    a = b ∨ Collision Primitives.wideField a.wideInputs b.wideInputs := by
  obtain ⟨hdomain, hfields⟩ := Prod.mk.inj h
  rcases a with a | a
  · rcases b with b | b
    · exact (RevealStatement.eq_or_collide hfields).imp (congrArg reveal) id
    · exact absurd hdomain revealDomain_ne_refreshDomain
  · rcases b with b | b
    · exact absurd hdomain revealDomain_ne_refreshDomain.symm
    · exact (RefreshStatement.eq_or_collide hfields).imp (congrArg refresh) id

end Statement

/-- **A statement digest binds every public fact.** Different statements, of one kind or of both,
with one digest exhibit two different inputs of `poseidon_pair` with one output, an input of
`poseidon_pair` whose output is a domain constant, or two different inputs of `wide_field` with one
output under one personalization; all of them were hashed for the two digests. -/
theorem statement_digest_binds {a b : Statement} (hne : a ≠ b)
    (h : a.digest poseidonPair = b.digest poseidonPair) :
    PairCollision poseidonPair (a.pairInputs poseidonPair) (b.pairInputs poseidonPair) ∨
    (∃ constant ∈ [revealDomain, refreshDomain],
      Hits poseidonPair constant (a.pairInputs poseidonPair ++ b.pairInputs poseidonPair)) ∨
    Collision Primitives.wideField a.wideInputs b.wideInputs := by
  have hconstant : ∀ statement : Statement,
      statement.folded.1 ∈ [revealDomain, refreshDomain] := by
    intro statement
    rcases statement.folded_domain with hdomain | hdomain
    · simp [hdomain]
    · simp [hdomain]
  rw [Statement.digest_eq, Statement.digest_eq] at h
  rw [Statement.pairInputs_eq, Statement.pairInputs_eq]
  rcases foldl_pair_eq (PallasBase.toRepr_inj h) with
    ⟨hdomain, hfields⟩ | hcollision | hhits | hhits
  · -- the folds agree, so the fields do
    rcases Statement.eq_or_collide (Prod.ext hdomain hfields) with heq | hcollision
    · exact absurd heq hne
    · exact Or.inr (Or.inr hcollision)
  · exact Or.inl hcollision
  · exact Or.inr (Or.inl ⟨_, hconstant b, hhits.mono⟩)
  · obtain ⟨p, hp, houtput⟩ := hhits
    exact Or.inr (Or.inl ⟨_, hconstant a, p, List.mem_append_right _ hp, houtput⟩)

end Statement

namespace Sample

/-- A two-to-one function that is easy to evaluate. -/
def pairSum (left right : PallasBase) : PallasBase := 5 * left + right

/-- The statement of a REVEAL of `alice` whose COMMIT lies at a transaction of a block. -/
def revealStatement (txIndex : U32) : Statement :=
  .reveal {
    deploymentId := Vector.replicate 32 8
    nameId := .ofField 7 (by decide)
    inclusionEpoch := 1
    commitment := commitment
    commitRef := ⟨0, txIndex, Vector.replicate 32 5⟩
    ua := ua
    actionIndex := 0
    actionNullifier := field 6
    actionCommitment := field 3
    successorFutureNf := field 4 }

/-- The tabulated `wide_field` does not tell COMMIT references apart. -/
theorem statement_digest_binds_reveal :
    PairCollision pairSum ((revealStatement 0).pairInputs pairSum)
      ((revealStatement 1).pairInputs pairSum) ∨
    (∃ constant ∈ [revealDomain, refreshDomain], Hits pairSum constant
      ((revealStatement 0).pairInputs pairSum ++ (revealStatement 1).pairInputs pairSum)) ∨
    Collision Primitives.wideField (revealStatement 0).wideInputs (revealStatement 1).wideInputs :=
  statement_digest_binds pairSum (by decide) (by decide +kernel)

end Sample

end CoppiceNames
