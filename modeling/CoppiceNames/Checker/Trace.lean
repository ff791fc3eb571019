import CoppiceNames.Reducer.Runs

/-!
# Semantic traces

What `names-semantic-trace.rs` prints for the full reducer of a case: after every step its result
and a snapshot of the state. The independent checker prints the same shape, and the two outputs are
compared verbatim. A JSON object is a structure here, a JSON integer a natural number, and 32 bytes
stand for their lower-case hexadecimal text. Every text that either side writes is kept.

A value that the corpus reader parses is the value it parses to, so a step carries a `Block`. The
reader of the source turns the proof verdict of an operation into a one-byte proof; `ProofVerdicts`
is that verifier for any reading of the proof bytes as a verdict.
-/

open Std

namespace CoppiceNames

section Trace

variable [Primitives]

/-! ### The shape of a trace -/

/-- The verdict on one transaction. -/
structure TracedOperation where
  txIndex : U32
  kind : String
  accepted : Option Bool
  clauseId : String
  deriving DecidableEq

/-- A head that was compacted or terminated. -/
structure Transition where
  clauseId : String
  height : U32
  nameId : NameId
  previousHead : StateRef
  transition : String
  deriving DecidableEq

/-- The result of an `apply` step. -/
inductive ApplyResult
  | applied (ok : List String) (operations : List TracedOperation) (transitions : List Transition)
  | refused (clauseId error : String) (operations : List TracedOperation)
  deriving DecidableEq

/-- The result of a `rollback` step. -/
structure RollbackResult where
  ok : Bool
  error : Option String
  clauseId : String
  deriving DecidableEq

/-- A head as a resolution shows it. -/
structure PublicHead where
  name : Name
  ua : CanonicalUa
  producer : StateRef
  commitmentHex : Bytes32
  futureNfHex : Bytes32
  producerEpoch : ℕ
  expiryHeight : ℕ
  terminalHeight : Option ℕ
  deriving DecidableEq

/-- The resolution of a tracked name. -/
inductive TracedResolution
  | resolved (lifecycle : String) (ua : Option CanonicalUa) (head : Option PublicHead)
  | failed (clauseId error : String) (requestedHeight : U32) (tipHeight : Option U32)
  deriving DecidableEq

/-- The state after a step. -/
structure TracedState where
  tip : Option ReducerTip
  resolutions : List (Name × TracedResolution)
  pendingCommits : List (CommitRef × Option Bytes32)
  deriving DecidableEq

/-- The result of a step. -/
inductive StepResult
  | apply (result : ApplyResult)
  | rollback (result : RollbackResult)
  deriving DecidableEq

/-- One entry of a trace. -/
structure TraceEntry where
  result : StepResult
  state : TracedState
  deriving DecidableEq

/-- One step of a case. -/
inductive Step
  | apply (block : Block) (referenced : List ReferencedCommit)
  | rollback (expected : Bytes32)

/-- What a case tracks. -/
structure Tracked where
  names : List Name
  commitRefs : List CommitRef

/-! ### Texts -/

/-- `Accepted` under `{:?}`. -/
def Accepted.debug : Accepted → String
  | commit => "Commit"
  | reveal => "Reveal"
  | refresh => "Refresh"

/-- `Lifecycle` under `{:?}`. -/
def Lifecycle.debug : Lifecycle → String
  | active => "Active"
  | cooldown => "Cooldown"
  | missing => "Missing"

/-- `ApplyError` under `{:?}`. -/
def ApplyError.debug : ApplyError → String
  | invalidParameters => "InvalidParameters"
  | wrongHeight => "WrongHeight"
  | wrongPreviousHash => "WrongPreviousHash"
  | nonCanonicalTransactionIndex => "NonCanonicalTransactionIndex"
  | nonCanonicalActionIndex => "NonCanonicalActionIndex"
  | invalidReferencedCommit => "InvalidReferencedCommit"
  | conflictingReferencedCommit => "ConflictingReferencedCommit"

/-- `RollbackError` under `{:?}`. -/
def RollbackError.debug : RollbackError → String
  | noAppliedBlock => "NoAppliedBlock"
  | beyondRetention => "BeyondRetention"
  | wrongTipHash => "WrongTipHash"

/-- `apply_error_clause`. -/
def applyErrorClause : ApplyError → String
  | .wrongHeight | .wrongPreviousHash => "NAMES.BLOCK.CONTINUITY"
  | .nonCanonicalTransactionIndex | .nonCanonicalActionIndex => "NAMES.BLOCK.ORDER"
  | .invalidReferencedCommit | .conflictingReferencedCommit => "NAMES.REVEAL.COMMIT"
  | .invalidParameters => "NAMES.BLOCK.ACTIVATION"

/-- `operation_kind`, for the full reducer. -/
def operationKind : Option Operation → String
  | none => "inert"
  | some (.commit _) => "commit"
  | some (.reveal _) => "reveal"
  | some (.refresh _) => "refresh"

/-! ### The trace of the reducer -/

/-- `ExplicitProofVerdicts`, for a reading of proof bytes as verdicts. -/
def ProofVerdicts (valid : List UInt8 → Bool) : ProofVerifier where
  verifyReveal _ proof := valid proof
  verifyRefresh _ proof := valid proof

/-- `compaction`. -/
def Compaction.traced (value : Compaction) : Transition where
  clauseId := "NAMES.LIFECYCLE.COMPACT"
  height := value.height
  nameId := value.nameId
  previousHead := value.previousHead
  transition := "Compacted"

/-- `termination`. -/
def Termination.traced (value : Termination) : Transition where
  clauseId := "NAMES.SPEND.CURRENT"
  height := value.height
  nameId := value.nameId
  previousHead := value.previousHead
  transition := "Terminated"

/-- `decisions` of an accepted block: one reducer decision per transaction, or a panic. -/
def tracedDecisions : List Transaction → List OperationDecision → Option (List TracedOperation)
  | [], _ => some []
  | _ :: _, [] => none
  | transaction :: rest, decision :: decisions => do
    let operation : TracedOperation :=
      { txIndex := transaction.txIndex
        kind := operationKind transaction.operation
        accepted := some decision.accepted.isSome
        clauseId := decision.clauseId.text }
    return operation :: (← tracedDecisions rest decisions)

/-- `decisions` of a refused block. -/
def unevaluated (block : Block) (clauseId : String) : List TracedOperation :=
  block.transactions.map fun transaction ↦
    ⟨transaction.txIndex, operationKind transaction.operation, none, clauseId⟩

/-- `apply_result`. -/
def applyResult (block : Block) : Except ApplyError BlockOutcome → Option ApplyResult
  | .ok outcome => do
    let operations ← tracedDecisions block.transactions outcome.decisions
    return .applied (outcome.accepted.map Accepted.debug) operations
      (outcome.compacted.map Compaction.traced ++ outcome.terminated.map Termination.traced)
  | .error e => some (.refused (applyErrorClause e) e.debug
    (unevaluated block (applyErrorClause e)))

/-- `rollback_result`. -/
def rollbackResult {A : Type} : Except RollbackError A → RollbackResult
  | .ok _ => ⟨true, none, "NAMES.ROLLBACK.EXACT"⟩
  | .error e => ⟨false, some e.debug, "NAMES.ROLLBACK.EXACT"⟩

/-- `head_json`. -/
def Head.publish (head : Head) : PublicHead where
  name := head.name
  ua := head.ua
  producer := head.producer
  commitmentHex := head.commitment.bytes
  futureNfHex := head.futureNf.bytes
  producerEpoch := head.producerEpoch
  expiryHeight := head.expiryHeight
  terminalHeight := head.terminalHeight.map Fin.val

/-- `resolution_result_json`. -/
def tracedResolution : Except ResolutionError Resolution → TracedResolution
  | .ok resolution =>
    .resolved resolution.lifecycle.debug resolution.ua (resolution.head.map Head.publish)
  | .error (.incompleteHistory requested tip) =>
    .failed "NAMES.EXACT.PARITY" "IncompleteHistory" requested tip
  | .error (.historicalResolutionUnavailable requested tip) =>
    .failed "NAMES.EXACT.PARITY" "HistoricalResolutionUnavailable" requested (some tip)

namespace Reducer

variable (reducer : Reducer)

/-- `full_snapshot`. -/
def fullSnapshot (tracked : Tracked) : TracedState :=
  let height := (reducer.tip.map ReducerTip.height).getD reducer.rules.parameters.activationHeight
  { tip := reducer.tip
    resolutions := tracked.names.map fun name ↦
      (name, tracedResolution (reducer.resolveAuthenticated name height))
    pendingCommits := tracked.commitRefs.map fun reference ↦
      (reference, reducer.commits[reference]?.map Commitment.bytes) }

/-- One step of `run_case`. -/
def traceStep (tracked : Tracked) : Step → Option (TraceEntry × Reducer)
  | .apply block referenced => do
    let (result, next) ← reducer.applyBlockDetailed block referenced
    let result ← applyResult block result
    return (⟨.apply result, next.fullSnapshot tracked⟩, next)
  | .rollback expected =>
    let (result, next) := reducer.rollbackTipDetailed expected
    some (⟨.rollback (rollbackResult result), next.fullSnapshot tracked⟩, next)

/-- `run_case`, for the full reducer. -/
def trace (reducer : Reducer) (tracked : Tracked) : List Step → Option (List TraceEntry)
  | [] => some []
  | step :: steps => do
    let (entry, next) ← reducer.traceStep tracked step
    return entry :: (← next.trace tracked steps)

/-- The first entry of a trace. -/
theorem trace_cons_eq_some_iff {tracked : Tracked} {step : Step} {steps : List Step}
    {entries : List TraceEntry} : reducer.trace tracked (step :: steps) = some entries ↔
      ∃ entry next rest, reducer.traceStep tracked step = some (entry, next) ∧
        next.trace tracked steps = some rest ∧ entries = entry :: rest := by
  rw [trace]
  simp only [Option.bind_eq_bind, Option.bind_eq_some_iff, Option.pure_def, Option.some.injEq,
    Prod.exists]
  constructor
  · rintro ⟨entry, next, hstep, rest, hrest, rfl⟩
    exact ⟨entry, next, rest, hstep, hrest, rfl⟩
  · rintro ⟨entry, next, rest, hstep, hrest, rfl⟩
    exact ⟨entry, next, hstep, rest, hrest, rfl⟩

end Reducer

end Trace

end CoppiceNames
