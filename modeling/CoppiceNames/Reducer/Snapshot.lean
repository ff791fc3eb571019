import CoppiceNames.Reducer.Apply

/-!
# Snapshots

`save_snapshot` and `load_snapshot` of `reducer.rs`, with every check the loader makes. The stored
structures go through `serde_json`, which is a parameter (`Serde`): a type of byte strings with a
writer and a reader for each stored structure. The four loops that parse a stored map are one
function, `OrderedMap.loadAll`, at their own entry parsers.
-/

open Std

namespace CoppiceNames

/-- `SnapshotError`. -/
inductive SnapshotError
  | encoding
  | unsupportedFormat
  | parametersMismatch
  | nameMismatch
  | invalidState
  | invalidHistory
  deriving DecidableEq, Repr

/-- `RollbackRange`: the heights the journals cover. -/
structure RollbackRange where
  firstHeight : U32
  lastHeight : U32
  deriving DecidableEq

/-- `StoredHead`. -/
structure StoredHead where
  name : Str
  ua : Str
  producer : StateRef
  commitment : Bytes32
  futureNf : Bytes32
  producerEpoch : U32
  expiryHeight : U32
  terminalHeight : Option U32
  deriving DecidableEq

/-- `StoredUndo`. -/
structure StoredUndo where
  height : U32
  hash : Bytes32
  previousHash : Bytes32
  previousNextHeight : Option U32
  previousTipHeight : Option U32
  commits : List (CommitRef × Option Bytes32)
  heads : List (Bytes32 × Option StoredHead)
  deriving DecidableEq

/-- `StoredReducer`. Its parameters are stored field by field. -/
structure StoredReducer where
  formatVersion : U32
  deploymentId : Bytes32
  rulesetFingerprint : Bytes32
  rollbackRange : Option RollbackRange
  parameters : Parameters
  nextHeight : Option U32
  tipHeight : Option U32
  previousHash : Bytes32
  commits : List (CommitRef × Bytes32)
  heads : List (Bytes32 × StoredHead)
  history : List StoredUndo
  deriving DecidableEq

/-- `serde_json` on one stored structure: `to_vec` and `from_slice` over byte strings `B`. -/
structure Serde (B S : Type) where
  toVec : S → Option B
  fromSlice : B → Option S

/-- Writing succeeds and reads back. -/
def Serde.RoundTrips {B S : Type} (serde : Serde B S) : Prop :=
  ∀ stored, ∃ bytes, serde.toVec stored = some bytes ∧ serde.fromSlice bytes = some stored

/-- `REDUCER_SNAPSHOT_FORMAT_VERSION`. -/
def reducerSnapshotFormatVersion : U32 := 3

section Snapshot

variable [Primitives]

/-- `ruleset_fingerprint`. -/
def rulesetFingerprint : Bytes32 :=
  Primitives.blake2b256 (lit "CoppiceNmRule") Primitives.canonicalManifest

/-- `rollback_range`. -/
def rollbackRange (history : List Undo) : Option RollbackRange :=
  match history.head?, history.getLast? with
  | some first, some last => some ⟨first.height, last.height⟩
  | _, _ => none

/-! ### Storing -/

/-- `StoredHead::from`. -/
def Head.store (head : Head) : StoredHead where
  name := head.name.asStr
  ua := head.ua.value
  producer := head.producer
  commitment := head.commitment.bytes
  futureNf := head.futureNf.bytes
  producerEpoch := head.producerEpoch
  expiryHeight := head.expiryHeight
  terminalHeight := head.terminalHeight

/-- `StoredUndo::from`. -/
def Undo.store (undo : Undo) : StoredUndo where
  height := undo.height
  hash := undo.hash
  previousHash := undo.previousHash
  previousNextHeight := undo.previousNextHeight
  previousTipHeight := undo.previousTipHeight
  commits := undo.commits.toList.map fun e ↦ (e.1, e.2.map Commitment.bytes)
  heads := undo.heads.toList.map fun e ↦ (e.1.bytes, e.2.map Head.store)

/-- The structure `save_snapshot` writes. -/
def Reducer.store (reducer : Reducer) : StoredReducer where
  formatVersion := reducerSnapshotFormatVersion
  deploymentId := reducer.rules.parameters.deploymentId
  rulesetFingerprint := rulesetFingerprint
  rollbackRange := rollbackRange reducer.history
  parameters := reducer.rules.parameters
  nextHeight := reducer.nextHeight
  tipHeight := reducer.tipHeight
  previousHash := reducer.previousHash
  commits := reducer.commits.toList.map fun e ↦ (e.1, e.2.bytes)
  heads := reducer.heads.toList.map fun e ↦ (e.1.bytes, e.2.store)
  history := reducer.history.map Undo.store

/-- `save_snapshot`. -/
def Reducer.saveSnapshot {B : Type} (serde : Serde B StoredReducer) (reducer : Reducer) :
    Except SnapshotError B :=
  match serde.toVec reducer.store with
  | some bytes => .ok bytes
  | none => .error .encoding

/-! ### Validation -/

/-- `validate_tip`. -/
def validateTip (parameters : Parameters) (nextHeight tipHeight : Option U32) :
    Except SnapshotError Unit :=
  match tipHeight with
  | none => if nextHeight = some parameters.activationHeight then .ok () else .error .invalidState
  | some tip =>
    if tip ≥ parameters.activationHeight ∧ nextHeight = U32.checkedAdd tip 1 then .ok ()
    else .error .invalidState

/-- `validate_commit`. -/
def validateCommit (parameters : Parameters) (tipHeight : Option U32) (reference : CommitRef) :
    Except SnapshotError Unit :=
  match tipHeight with
  | none => .error .invalidState
  | some tip =>
    if reference.height < parameters.activationHeight ∨ reference.height > tip ∨
        tip - reference.height ≥ parameters.commitTtlBlocks then .error .invalidState
    else .ok ()

/-- `restore_head`. -/
def restoreHead (parameters : Parameters) (network : Network) (tipHeight : Option U32)
    (stored : StoredHead) : Except SnapshotError Head :=
  match tipHeight with
  | none => .error .invalidState
  | some tip =>
    match Name.parse stored.name, CanonicalUa.parse network stored.ua,
        FieldElement.fromBytes stored.commitment, FieldElement.fromBytes stored.futureNf,
        parameters.epoch stored.producer.height, parameters.expiry stored.producer.height with
    | .ok name, .ok ua, .ok commitment, .ok futureNf, .ok expectedEpoch, .ok expectedExpiry =>
      if stored.producer.height > tip ∨ stored.producerEpoch ≠ expectedEpoch ∨
          stored.expiryHeight ≠ expectedExpiry ∨
          stored.terminalHeight.any (fun height ↦
            height < stored.producer.height ∨ height > tip) then .error .invalidState
      else
        let head : Head :=
          { name, ua, commitment, futureNf
            producer := stored.producer
            producerEpoch := stored.producerEpoch
            expiryHeight := stored.expiryHeight
            terminalHeight := stored.terminalHeight }
        if head.terminalHeight = none ∧ tip ≥ head.expiryHeight ∨
          head.isClaimable tip parameters then
          .error .invalidState
        else .ok head
    | _, _, _, _, _, _ => .error .invalidState

/-- One entry of the stored COMMITs. -/
def restoreCommit (parameters : Parameters) (tipHeight : Option U32)
    (entry : CommitRef × Bytes32) : Except SnapshotError (CommitRef × Commitment) :=
  match Commitment.fromBytes entry.2 with
  | .error _ => .error .invalidState
  | .ok commitment =>
    match validateCommit parameters tipHeight entry.1 with
    | .error e => .error e
    | .ok () => .ok (entry.1, commitment)

/-- One entry of the stored heads. -/
def restoreNamedHead (parameters : Parameters) (network : Network) (tipHeight : Option U32)
    (entry : Bytes32 × StoredHead) : Except SnapshotError (NameId × Head) :=
  match NameId.fromBytes entry.1 with
  | .error _ => .error .invalidState
  | .ok nameId =>
    match restoreHead parameters network tipHeight entry.2 with
    | .error e => .error e
    | .ok head => if head.name.id ≠ .ok nameId then .error .invalidState else .ok (nameId, head)

/-- One entry of a journal's COMMITs. -/
def restoreCommitUndo (parameters : Parameters) (height : U32) (previousTip : Option U32)
    (entry : CommitRef × Option Bytes32) :
    Except SnapshotError (CommitRef × Option Commitment) :=
  match entry.2 with
  | none => if entry.1.height > height then .error .invalidHistory else .ok (entry.1, none)
  | some bytes =>
    match Commitment.fromBytes bytes with
    | .error _ => .error .invalidHistory
    | .ok commitment =>
      if entry.1.height > height ∨ validateCommit parameters previousTip entry.1 ≠ .ok () then
        .error .invalidHistory
      else .ok (entry.1, some commitment)

/-- One entry of a journal's heads. -/
def restoreHeadUndo (parameters : Parameters) (network : Network) (previousTip : Option U32)
    (entry : Bytes32 × Option StoredHead) : Except SnapshotError (NameId × Option Head) :=
  match NameId.fromBytes entry.1 with
  | .error _ => .error .invalidHistory
  | .ok nameId =>
    match entry.2 with
    | none => .ok (nameId, none)
    | some stored =>
      match restoreHead parameters network previousTip stored with
      | .error _ => .error .invalidHistory
      | .ok head =>
        if head.name.id ≠ .ok nameId then .error .invalidHistory else .ok (nameId, some head)

/-- `restore_undo`. -/
def restoreUndo (parameters : Parameters) (network : Network) (tipHeight : Option U32)
    (stored : StoredUndo) : Except SnapshotError Undo :=
  let expectedPreviousTip :=
    if stored.height = parameters.activationHeight then none else U32.checkedSub stored.height 1
  if tipHeight.all (fun tip ↦ stored.height > tip) ∨
      stored.previousNextHeight ≠ some stored.height ∨
      stored.previousTipHeight ≠ expectedPreviousTip then .error .invalidHistory
  else
    match OrderedMap.loadAll
        (restoreCommitUndo parameters stored.height stored.previousTipHeight) .invalidHistory ∅
        stored.commits with
    | .error e => .error e
    | .ok commits =>
      match OrderedMap.loadAll (restoreHeadUndo parameters network stored.previousTipHeight)
          .invalidHistory ∅ stored.heads with
      | .error e => .error e
      | .ok heads => .ok
        { height := stored.height
          hash := stored.hash
          previousHash := stored.previousHash
          previousNextHeight := stored.previousNextHeight
          previousTipHeight := stored.previousTipHeight
          commits := commits
          heads := heads }

/-- `validate_history`: the journals end at the tip and are linked. -/
def validateHistory (tipHeight : Option U32) (previousHash : Bytes32) (history : List Undo) :
    Except SnapshotError Unit :=
  match history.getLast? with
  | none => .ok ()
  | some last =>
    if some last.height ≠ tipHeight ∨ last.hash ≠ previousHash then .error .invalidHistory
    else if (history.zip history.tail).any (fun pair ↦
        U32.checkedAdd pair.1.height 1 ≠ some pair.2.height ∨
          pair.2.previousHash ≠ pair.1.hash) then .error .invalidHistory
    else .ok ()

/-! ### Loading -/

/-- `load_snapshot`, on the stored structure. -/
def Reducer.restore (parameters : Parameters) (network : Network) (verifier : ProofVerifier)
    (valid : parameters.Valid) (stored : StoredReducer) : Except SnapshotError Reducer :=
  if stored.formatVersion ≠ reducerSnapshotFormatVersion then .error .unsupportedFormat
  else if stored.deploymentId ≠ parameters.deploymentId ∨
      stored.rulesetFingerprint ≠ rulesetFingerprint ∨ stored.parameters ≠ parameters then
    .error .parametersMismatch
  else
    match validateTip parameters stored.nextHeight stored.tipHeight with
    | .error e => .error e
    | .ok () =>
      match OrderedMap.loadAll (restoreCommit parameters stored.tipHeight) .invalidState ∅
          stored.commits with
      | .error e => .error e
      | .ok commits =>
        match OrderedMap.loadAll (restoreNamedHead parameters network stored.tipHeight)
            .invalidState ∅ stored.heads with
        | .error e => .error e
        | .ok heads =>
          match stored.history.mapM (restoreUndo parameters network stored.tipHeight) with
          | .error e => .error e
          | .ok history =>
            match validateHistory stored.tipHeight stored.previousHash history with
            | .error e => .error e
            | .ok () =>
              if stored.rollbackRange ≠ rollbackRange history then .error .invalidHistory
              else
                .ok { (Records.mk commits heads ∅ ∅ ∅ ∅).rebuildDerivedIndexes with
                  rules := ⟨parameters, verifier, valid⟩
                  nextHeight := stored.nextHeight
                  tipHeight := stored.tipHeight
                  previousHash := stored.previousHash
                  history := history }

/-- `load_snapshot`. -/
def Reducer.loadSnapshot {B : Type} (serde : Serde B StoredReducer) (parameters : Parameters)
    (network : Network) (verifier : ProofVerifier) (bytes : B) : Except SnapshotError Reducer :=
  match h : parameters.validate with
  | .error _ => .error .parametersMismatch
  | .ok () =>
    match serde.fromSlice bytes with
    | none => .error .encoding
    | some stored =>
      Reducer.restore parameters network verifier (Parameters.valid_of_validate h) stored

/-! ### What a successful load establishes -/

/-- **Loading, check by check.** -/
theorem Reducer.restore_eq_ok_iff {parameters : Parameters} {network : Network}
    {verifier : ProofVerifier} {valid : parameters.Valid} {stored : StoredReducer}
    {reducer : Reducer} :
    Reducer.restore parameters network verifier valid stored = .ok reducer ↔
      stored.formatVersion = reducerSnapshotFormatVersion ∧
      stored.deploymentId = parameters.deploymentId ∧
      stored.rulesetFingerprint = rulesetFingerprint ∧ stored.parameters = parameters ∧
      validateTip parameters stored.nextHeight stored.tipHeight = .ok () ∧
      ∃ commits heads history,
        OrderedMap.loadAll (restoreCommit parameters stored.tipHeight) .invalidState ∅
          stored.commits = .ok commits ∧
        OrderedMap.loadAll (restoreNamedHead parameters network stored.tipHeight) .invalidState ∅
          stored.heads = .ok heads ∧
        stored.history.mapM (restoreUndo parameters network stored.tipHeight) = .ok history ∧
        validateHistory stored.tipHeight stored.previousHash history = .ok () ∧
        stored.rollbackRange = rollbackRange history ∧
        reducer = { (Records.mk commits heads ∅ ∅ ∅ ∅).rebuildDerivedIndexes with
          rules := ⟨parameters, verifier, valid⟩
          nextHeight := stored.nextHeight
          tipHeight := stored.tipHeight
          previousHash := stored.previousHash
          history := history } := by
  rw [Reducer.restore]
  constructor
  · intro h
    split at h
    · cases h
    rename_i hversion
    split at h
    · cases h
    rename_i hidentity
    split at h
    · cases h
    rename_i htip
    split at h
    · cases h
    rename_i commits hcommits
    split at h
    · cases h
    rename_i heads hheads
    split at h
    · cases h
    rename_i history hhistory
    split at h
    · cases h
    rename_i hlinked
    split at h
    · cases h
    rename_i hrange
    cases h
    simp only [ne_eq, not_or, not_not] at hversion hidentity hrange
    exact ⟨hversion, hidentity.1, hidentity.2.1, hidentity.2.2, htip, commits, heads, history,
      hcommits, hheads, hhistory, hlinked, hrange, rfl⟩
  · rintro ⟨hversion, hdeployment, hfingerprint, hparameters, htip, commits, heads, history,
      hcommits, hheads, hhistory, hlinked, hrange, rfl⟩
    simp [hversion, hdeployment, hfingerprint, hparameters, htip, hcommits, hheads, hhistory,
      hlinked, hrange]

theorem Reducer.loadSnapshot_eq_ok {B : Type} {serde : Serde B StoredReducer}
    {parameters : Parameters} {network : Network} {verifier : ProofVerifier} {bytes : B}
    {reducer : Reducer} (h : loadSnapshot serde parameters network verifier bytes = .ok reducer) :
    ∃ valid stored, serde.fromSlice bytes = some stored ∧
      restore parameters network verifier valid stored = .ok reducer := by
  rw [loadSnapshot] at h
  split at h
  · cases h
  rename_i hvalid
  split at h
  · cases h
  rename_i stored hstored
  exact ⟨Parameters.valid_of_validate hvalid, stored, hstored, h⟩

end Snapshot

end CoppiceNames
