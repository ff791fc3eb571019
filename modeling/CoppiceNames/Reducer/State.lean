import CoppiceNames.Library.InvertedIndex
import CoppiceNames.Library.Journal
import CoppiceNames.Protocol.Codec
import CoppiceNames.Protocol.Schedule

/-!
# Reducer state

The data of `reducer.rs`: authenticated blocks, heads and their lifecycle, the record maps with
their four derived indexes, rollback journals, and resolution at the canonical tip.

The fields of the source's `Reducer` are grouped by what changes them. `Rules` never change and
carry the check that `Reducer::new` and `load_snapshot` make. `Records` are the six maps that
`replace_commit` and `replace_head` write. `Journal` is the part of an `Undo` that the phases of a
block fill in. A method of the source that only writes records is a function of `Records` here.
-/

open Std

namespace CoppiceNames

/-! ### Authenticated input -/

/-- `Action`: one authenticated Ironwood action. -/
structure Action where
  actionIndex : U32
  nullifier : FieldElement
  commitment : FieldElement
  deriving DecidableEq

/-- `ReferencedCommit`: a historical COMMIT authenticated on demand. -/
structure ReferencedCommit where
  reference : CommitRef
  commitment : Commitment
  deriving DecidableEq

/-- `ReducerTip`. -/
structure ReducerTip where
  height : U32
  hash : Bytes32
  deriving DecidableEq

section State

variable [Primitives]

/-- `Transaction`: actions and decoded Names operation of one transaction. -/
structure Transaction where
  txIndex : U32
  txid : Bytes32
  actions : List Action
  operation : Option Operation
  deriving DecidableEq

/-- `Block`: one authenticated canonical block. -/
structure Block where
  height : U32
  hash : Bytes32
  prevHash : Bytes32
  transactions : List Transaction
  deriving DecidableEq

/-! ### Proof statements -/

/-- `RevealStatement`: the public facts bound into a REVEAL proof. -/
structure RevealStatement where
  deploymentId : Bytes32
  nameId : NameId
  inclusionEpoch : U32
  commitment : Commitment
  commitRef : CommitRef
  ua : CanonicalUa
  actionIndex : U32
  actionNullifier : FieldElement
  actionCommitment : FieldElement
  successorFutureNf : FieldElement
  deriving DecidableEq

/-- `RefreshStatement`: the public facts bound into a REFRESH proof. -/
structure RefreshStatement where
  deploymentId : Bytes32
  nameId : NameId
  predecessorRef : StateRef
  predecessorCommitment : FieldElement
  predecessorFutureNf : FieldElement
  predecessorEpoch : U32
  inclusionEpoch : U32
  ua : CanonicalUa
  actionIndex : U32
  actionNullifier : FieldElement
  actionCommitment : FieldElement
  successorFutureNf : FieldElement
  deriving DecidableEq

/-- `ProofVerifier`: the cryptographic boundary of replay. -/
structure ProofVerifier where
  verifyReveal : RevealStatement → List UInt8 → Bool
  verifyRefresh : RefreshStatement → List UInt8 → Bool

/-- The part of a reducer that never changes, with the parameter check behind it. -/
structure Rules where
  parameters : Parameters
  verifier : ProofVerifier
  /-- The parameters passed `Parameters::validate`. -/
  valid : parameters.Valid

/-! ### Heads -/

/-- `Head`: the current accepted state of one name. -/
structure Head where
  name : Name
  ua : CanonicalUa
  producer : StateRef
  commitment : FieldElement
  futureNf : FieldElement
  producerEpoch : U32
  expiryHeight : U32
  terminalHeight : Option U32
  deriving DecidableEq

/-- `Lifecycle`. -/
inductive Lifecycle
  | active
  | cooldown
  | missing
  deriving DecidableEq, Repr

namespace Head

variable (head : Head)

/-- `Head::terminal_at`. -/
def terminalAt (height : U32) : Option U32 :=
  head.terminalHeight.or (if height ≥ head.expiryHeight then some head.expiryHeight else none)

/-- `Head::is_claimable`, with the sum taken in `u64`. -/
def isClaimable (height : U32) (parameters : Parameters) : Bool :=
  (head.terminalAt height).any fun terminal ↦
    height.val ≥ terminal.val + parameters.cooldownBlocks.val

/-- `Head::lifecycle`. -/
def lifecycle (height : U32) (parameters : Parameters) : Lifecycle :=
  match head.terminalAt height with
  | none => .active
  | some _ => if head.isClaimable height parameters then .missing else .cooldown

/-- The key of a head in the index of active heads. -/
def activeExpiry : Option U32 :=
  match head.terminalHeight with
  | some _ => none
  | none => some head.expiryHeight

end Head

/-- `Resolution`. -/
structure Resolution where
  lifecycle : Lifecycle
  ua : Option CanonicalUa
  head : Option Head
  deriving DecidableEq

/-- `ResolutionError`. -/
inductive ResolutionError
  | incompleteHistory (requestedHeight : U32) (tipHeight : Option U32)
  | historicalResolutionUnavailable (requestedHeight tipHeight : U32)
  deriving DecidableEq, Repr

/-! ### Records and journals -/

/-- The authoritative records and the four indexes derived from them. -/
@[ext]
structure Records where
  commits : OrderedMap CommitRef Commitment
  heads : OrderedMap NameId Head
  commitsByHeight : InvertedIndex U32 CommitRef
  headsByFutureNf : InvertedIndex Bytes32 NameId
  activeHeadsByExpiry : InvertedIndex U32 NameId
  terminalHeadsByHeight : InvertedIndex U32 NameId

/-- The records journaled by an `Undo`. -/
structure Journal where
  commits : JournalOf CommitRef Commitment
  heads : JournalOf NameId Head

/-- `Undo`: the journal of one block, with the chain position before it. -/
structure Undo extends Journal where
  height : U32
  hash : Bytes32
  previousHash : Bytes32
  previousNextHeight : Option U32
  previousTipHeight : Option U32

/-- `Reducer`: the full canonical state. The newest journal is last. -/
structure Reducer extends Records where
  rules : Rules
  nextHeight : Option U32
  tipHeight : Option U32
  previousHash : Bytes32
  history : List Undo

namespace Records

/-- No records. -/
def empty : Records := ⟨∅, ∅, ∅, ∅, ∅, ∅⟩

/-- `remember_commit`, on the records part of an `Undo`. -/
def rememberCommit (records : Records) (journal : Journal) (reference : CommitRef) : Journal :=
  { journal with commits := OrderedMap.remember journal.commits records.commits reference }

/-- `remember_head`. -/
def rememberHead (records : Records) (journal : Journal) (nameId : NameId) : Journal :=
  { journal with heads := OrderedMap.remember journal.heads records.heads nameId }

/-- File a COMMIT in its index. -/
def fileCommit (records : Records) (reference : CommitRef) : Records :=
  { records with
    commitsByHeight := records.commitsByHeight.addEntry reference.height reference }

/-- File a head in its three indexes. -/
def fileHead (records : Records) (nameId : NameId) (head : Head) : Records :=
  let records :=
    { records with
      headsByFutureNf := records.headsByFutureNf.addEntry head.futureNf.bytes nameId }
  match head.terminalHeight with
  | some height =>
    { records with
      terminalHeadsByHeight := records.terminalHeadsByHeight.addEntry height nameId }
  | none =>
    { records with
      activeHeadsByExpiry := records.activeHeadsByExpiry.addEntry head.expiryHeight nameId }

/-- `replace_commit`: remove the record and its index entry, then insert the new record. -/
def replaceCommit (records : Records) (reference : CommitRef) (commitment : Option Commitment) :
    Records :=
  let removed : Records :=
    match records.commits[reference]? with
    | none => records
    | some _ =>
      { records with
        commits := records.commits.erase reference
        commitsByHeight := records.commitsByHeight.removeEntry reference.height reference }
  match commitment with
  | none => removed
  | some commitment =>
    let inserted := { removed with commits := removed.commits.insert reference commitment }
    inserted.fileCommit reference

/-- `replace_head`: remove the head and its index entries, then insert the new head. -/
def replaceHead (records : Records) (nameId : NameId) (head : Option Head) : Records :=
  let removed : Records :=
    match records.heads[nameId]? with
    | none => records
    | some previous =>
      let records :=
        { records with
          heads := records.heads.erase nameId
          headsByFutureNf :=
            records.headsByFutureNf.removeEntry previous.futureNf.bytes nameId }
      match previous.terminalHeight with
      | some height =>
        { records with
          terminalHeadsByHeight := records.terminalHeadsByHeight.removeEntry height nameId }
      | none =>
        { records with
          activeHeadsByExpiry :=
            records.activeHeadsByExpiry.removeEntry previous.expiryHeight nameId }
  match head with
  | none => removed
  | some head =>
    let filed := removed.fileHead nameId head
    { filed with heads := filed.heads.insert nameId head }

/-- `rebuild_derived_indexes`: clear the indexes, then file every record. -/
def rebuildDerivedIndexes (records : Records) : Records :=
  let cleared : Records := ⟨records.commits, records.heads, ∅, ∅, ∅, ∅⟩
  let filed := records.commits.keys.foldl fileCommit cleared
  records.heads.toList.foldl (fun filed entry ↦ filed.fileHead entry.1 entry.2) filed

end Records

/-! ### Reading a reducer -/

/-- `ApplyError`. -/
inductive ApplyError
  | invalidParameters
  | wrongHeight
  | wrongPreviousHash
  | nonCanonicalTransactionIndex
  | nonCanonicalActionIndex
  | invalidReferencedCommit
  | conflictingReferencedCommit
  deriving DecidableEq, Repr

namespace Reducer

/-- `Reducer::new`. -/
def new (parameters : Parameters) (activationParentHash : Bytes32) (verifier : ProofVerifier) :
    Except ApplyError Reducer :=
  match h : parameters.validate with
  | .error _ => .error .invalidParameters
  | .ok () => .ok
    { Records.empty with
      rules := ⟨parameters, verifier, Parameters.valid_of_validate h⟩
      nextHeight := some parameters.activationHeight
      tipHeight := none
      previousHash := activationParentHash
      history := [] }

variable (reducer : Reducer)

/-- `Reducer::tip`. -/
def tip : Option ReducerTip :=
  reducer.tipHeight.map fun height ↦ ⟨height, reducer.previousHash⟩

/-- `Reducer::resolve`. -/
def resolve (name : Name) (height : U32) : Resolution :=
  match name.id with
  | .error _ => ⟨.missing, none, none⟩
  | .ok nameId =>
    match reducer.heads[nameId]? with
    | none => ⟨.missing, none, none⟩
    | some head =>
      match head.lifecycle height reducer.rules.parameters with
      | .missing => ⟨.missing, none, none⟩
      | .active => ⟨.active, some head.ua, some head⟩
      | .cooldown => ⟨.cooldown, none, some head⟩

/-- `Reducer::resolve_authenticated`. -/
def resolveAuthenticated (name : Name) (height : U32) : Except ResolutionError Resolution :=
  match reducer.tipHeight with
  | none =>
    if U32.checkedSub reducer.rules.parameters.activationHeight 1 = some height then
      .ok (reducer.resolve name height)
    else .error (.incompleteHistory height none)
  | some tip =>
    if height > tip then .error (.incompleteHistory height (some tip))
    else if tip ≠ height then .error (.historicalResolutionUnavailable height tip)
    else .ok (reducer.resolve name height)

end Reducer

theorem Reducer.new_eq_ok_iff {parameters : Parameters} {hash : Bytes32} {verifier : ProofVerifier}
    {reducer : Reducer} : Reducer.new parameters hash verifier = .ok reducer ↔
      ∃ valid, reducer = { Records.empty with
        rules := ⟨parameters, verifier, valid⟩
        nextHeight := some parameters.activationHeight
        tipHeight := none
        previousHash := hash
        history := [] } := by
  rw [Reducer.new]
  constructor
  · intro h
    split at h
    · cases h
    · cases h
      exact ⟨Parameters.validate_eq_ok_iff.1 ‹_›, rfl⟩
  · rintro ⟨valid, rfl⟩
    split
    · rename_i e he
      rw [Parameters.validate_eq_ok_iff.2 valid] at he
      cases he
    · rfl

end State

end CoppiceNames
