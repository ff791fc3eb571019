import CoppiceNames.Checker.Trace
import CoppiceNames.Library.Hex
import CoppiceNames.Library.InsertionDict

/-!
# The independent checker

The reducer of `verify-semantic-histories.py`, written from the specification and not from the Rust
code: insertion-ordered dictionaries, unbounded integers, no indexes, and a deep copy of the state
before every block in place of a journal. A `SemanticError` that Python raises ends the whole run
and is an error here.

An input value is the value the script parses it to, so of the checks that `_validate_block` makes
on values those of names and addresses remain. The dictionary of heads is keyed by hexadecimal text,
which stands for the name identifier; `sorted` orders the keys by that text.
-/

open Std

namespace CoppiceNames

namespace Checker

/-- `SemanticError`, by its message. -/
inductive SemanticError
  | invalidParameters
  | invalidName
  | nameHashExhausted
  | invalidUaLength
  | wrongUaNetwork
  deriving DecidableEq, Repr

/-- `parse_field`. -/
def parseField (bytes : Bytes32) : ℕ := leNat bytes.toList

/-- `field_hex`, of a parsed value. -/
def fieldHex (value : ℕ) : Bytes32 := ⟨(leBytes 32 value).toArray, by simp⟩

/-- `parse_name`. -/
def parseName (value : Str) : Except SemanticError Name :=
  let bare := if lit ".zec" <:+ value.bytes then value.bytes.take (value.bytes.length - 4)
    else value.bytes
  if h : MalformedName bare then .error .invalidName else .ok ⟨bare, h⟩

/-- `validate_parameters`. -/
def validateParameters (parameters : Parameters) : Except SemanticError Unit :=
  let window := parameters.windowBlocks.val
  let maturity := parameters.commitMaturityBlocks.val
  let ttl := parameters.commitTtlBlocks.val
  let epoch := parameters.epochBlocks.val
  if ¬ (window > 0 ∧ window ≤ maturity ∧ maturity < ttl ∧ ttl < epoch ∧
      parameters.leaseBlocks.val > epoch ∧ parameters.cooldownBlocks.val = epoch) then
    .error .invalidParameters
  else .ok ()

section Model

variable [Primitives]

/-- `name_id`: the first counter with a nonzero candidate. -/
def nameId (name : Name) : Except SemanticError NameId :=
  let candidates := (List.range 256).map fun counter ↦
    Primitives.wideField (lit "CoppiceNmName") (name.idInput counter)
  match candidates.find? fun candidate ↦ candidate ≠ 0 with
  | some candidate => if h : candidate ≠ 0 then .ok (NameId.ofField candidate h)
    else .error .nameHashExhausted
  | none => .error .nameHashExhausted

/-- `validate_ua`, for the network it defaults to. -/
def validateUa (ua : CanonicalUa) : Except SemanticError Unit :=
  if ¬ (0 < ua.value.bytes.length ∧ ua.value.bytes.length ≤ 1024) then .error .invalidUaLength
  else if (lit "uregtest1").isPrefixOf ua.value.bytes = false then .error .wrongUaNetwork
  else .ok ()

/-- A value of the dictionary `heads`. -/
structure Head where
  name : Name
  ua : CanonicalUa
  producer : StateRef
  commitmentHex : Bytes32
  futureNf : ℕ
  futureNfHex : Bytes32
  producerEpoch : ℕ
  expiryHeight : ℕ
  terminalHeight : Option ℕ
  deriving DecidableEq

/-- What a block changes, and what is copied before it. -/
structure State where
  nextHeight : Option ℕ
  tip : Option ReducerTip
  previousHash : Bytes32
  commits : Dict CommitRef ℕ
  heads : Dict NameId Head

/-- `Reducer`. The newest copy is last. -/
structure Reducer extends State where
  parameters : Parameters
  history : List State

/-- `Reducer.__init__`. -/
def Reducer.new (parameters : Parameters) (activationParentHash : Bytes32) :
    Except SemanticError Reducer := do
  validateParameters parameters
  return {
    parameters := parameters
    nextHeight := some parameters.activationHeight
    tip := none
    previousHash := activationParentHash
    commits := Dict.empty
    heads := Dict.empty
    history := [] }

/-! ### Schedule and lifecycle -/

/-- `operation_window`. -/
def operationWindow (parameters : Parameters) (name : Name) (height : ℕ) :
    Except SemanticError Bool :=
  let activation := parameters.activationHeight.val
  if height < activation then .ok false
  else
    let epoch := (height - activation) / parameters.epochBlocks.val
    let epochStart := activation + epoch * parameters.epochBlocks.val
    match nameId name with
    | .error e => .error e
    | .ok identity =>
      let digest := Primitives.blake2b256 (lit "CoppiceNmOff")
        (parameters.deploymentId.toList ++ identity.bytes.toList)
      let span := parameters.epochBlocks.val - parameters.windowBlocks.val + 1
      let start := epochStart + leNat (digest.toList.take 8) % span
      .ok (decide (start ≤ height ∧ height < start + parameters.windowBlocks.val))

/-- `lifecycle`. -/
def lifecycle (parameters : Parameters) (head : Head) (height : ℕ) : Lifecycle :=
  let terminal := head.terminalHeight.or
    (if height ≥ head.expiryHeight then some head.expiryHeight else none)
  match terminal with
  | none => .active
  | some terminal =>
    if height ≥ terminal + parameters.cooldownBlocks.val then .missing else .cooldown

/-- `public_head`: a head without its integer nullifier. -/
def Head.publish (head : Head) : PublicHead where
  name := head.name
  ua := head.ua
  producer := head.producer
  commitmentHex := head.commitmentHex
  futureNfHex := head.futureNfHex
  producerEpoch := head.producerEpoch
  expiryHeight := head.expiryHeight
  terminalHeight := head.terminalHeight

/-- `resolve`. -/
def Reducer.resolve (reducer : Reducer) (name : Name) (height : ℕ) :
    Except SemanticError TracedResolution := do
  let canonical ← parseName name.asStr
  let identity ← nameId canonical
  match reducer.heads.get? identity with
  | none => return .resolved "Missing" none none
  | some head =>
    match lifecycle reducer.parameters head height with
    | .missing => return .resolved "Missing" none none
    | .active => return .resolved "Active" (some head.ua) (some head.publish)
    | .cooldown => return .resolved "Cooldown" none (some head.publish)

/-! ### Admission of a block -/

/-- The checks of `_validate_block` on values, which raise. -/
def validateValues : List Transaction → Except SemanticError Unit
  | [] => .ok ()
  | transaction :: rest => do
    match transaction.operation with
    | some (.reveal op) =>
      let _ ← parseName op.name.asStr
      validateUa op.ua
    | some (.refresh op) =>
      let _ ← parseName op.name.asStr
      validateUa op.ua
    | _ => pure ()
    validateValues rest

/-- The loop over transaction and action indices. -/
def indexError (previousIndex : Option U32) : List Transaction → Option String
  | [] => none
  | transaction :: rest =>
    if previousIndex.any fun index ↦ transaction.txIndex ≤ index then
      some "NonCanonicalTransactionIndex"
    else if transaction.actions.zipIdx.all (fun (action, position) ↦
        action.actionIndex.val == position) = false then
      some "NonCanonicalActionIndex"
    else indexError (some transaction.txIndex) rest

/-- `reveal_refs`. -/
def revealRefs (block : Block) : List CommitRef :=
  block.transactions.filterMap fun transaction ↦
    match transaction.operation with
    | some (.reveal op) => some op.commit
    | _ => none

/-- The loop over the evidence. -/
def evidenceError (parameters : Parameters) (commits : Dict CommitRef ℕ) (block : Block)
    (supplied : Dict CommitRef ℕ) : List ReferencedCommit → Option String
  | [] => none
  | evidence :: rest =>
    let key := evidence.reference
    let referenceHeight := key.height.val
    let commitment := parseField evidence.commitment.bytes
    if key ∉ revealRefs block ∨ referenceHeight < parameters.activationHeight.val ∨
        referenceHeight ≥ block.height.val ∨
        (block.height.val : ℤ) - referenceHeight ≥ parameters.commitTtlBlocks.val then
      some "InvalidReferencedCommit"
    else if (supplied.get? key).any (· ≠ commitment) then some "ConflictingReferencedCommit"
    else if (commits.get? key).any (· ≠ commitment) then some "ConflictingReferencedCommit"
    else evidenceError parameters commits block (supplied.set key commitment) rest

/-- `_validate_block`, after the checks on values. -/
def Reducer.validateBlock (reducer : Reducer) (block : Block)
    (referenced : List ReferencedCommit) : Option String :=
  if reducer.nextHeight ≠ some block.height.val then some "WrongHeight"
  else if block.prevHash ≠ reducer.previousHash then some "WrongPreviousHash"
  else
    match indexError none block.transactions with
    | some error => some error
    | none => evidenceError reducer.parameters reducer.commits block Dict.empty referenced

/-- `_apply_error_clause`. -/
def applyErrorClause (error : String) : String :=
  if error = "WrongHeight" ∨ error = "WrongPreviousHash" then "NAMES.BLOCK.CONTINUITY"
  else if error = "NonCanonicalTransactionIndex" ∨ error = "NonCanonicalActionIndex" then
    "NAMES.BLOCK.ORDER"
  else if error = "InvalidReferencedCommit" ∨ error = "ConflictingReferencedCommit" then
    "NAMES.REVEAL.COMMIT"
  else "NAMES.BLOCK.ACTIVATION"

/-- The `type` of an operation, or `inert`. -/
def kind (transaction : Transaction) : String :=
  match transaction.operation with
  | none => "inert"
  | some (.commit _) => "commit"
  | some (.reveal _) => "reveal"
  | some (.refresh _) => "refresh"

/-- `_not_evaluated`. -/
def notEvaluated (block : Block) (clauseId : String) : List TracedOperation :=
  block.transactions.map fun transaction ↦
    ⟨transaction.txIndex, kind transaction, none, clauseId⟩

/-! ### The phases of a block -/

/-- The head that an operation installs. -/
def installed (parameters : Parameters) (height : U32) (transaction : Transaction) (name : Name)
    (ua : CanonicalUa) (actionIndex : U32) (action : Action) (successorFutureNf : FieldElement) :
    Head where
  name := name
  ua := ua
  producer := ⟨height, transaction.txIndex, transaction.txid, actionIndex⟩
  commitmentHex := fieldHex (parseField action.commitment.bytes)
  futureNf := parseField successorFutureNf.bytes
  futureNfHex := fieldHex (parseField successorFutureNf.bytes)
  producerEpoch := (height.val - parameters.activationHeight.val) / parameters.epochBlocks.val
  expiryHeight := height.val + parameters.leaseBlocks.val
  terminalHeight := none

namespace State

variable (state : State)

/-- `_mark_expired`. -/
def markExpired (height : U32) : State :=
  { state with heads := state.heads.mapValues fun _ head ↦
      if head.terminalHeight = none ∧ height.val ≥ head.expiryHeight then
        { head with terminalHeight := some head.expiryHeight }
      else head }

/-- The heads that `_compact_claimable` deletes. -/
def compacted (parameters : Parameters) (height : U32) : List Transition :=
  (sortedByHex (fun identity ↦ identity.bytes.toList) state.heads.keys).filterMap
    fun identity ↦ do
      let head ← state.heads.get? identity
      let terminal ← head.terminalHeight
      if height.val ≥ terminal + parameters.cooldownBlocks.val then
        some ⟨"NAMES.LIFECYCLE.COMPACT", height, identity, head.producer, "Compacted"⟩
      else none

/-- `_compact_claimable`. -/
def compactClaimable (parameters : Parameters) (height : U32) : List Transition × State :=
  let compacted := state.compacted parameters height
  (compacted, { state with heads :=
    (compacted.map Transition.nameId).foldl Dict.erase state.heads })

/-- `_prune_commits`. -/
def pruneCommits (parameters : Parameters) (height : U32) : State :=
  { state with commits := state.commits.filter fun key _ ↦
      (height.val : ℤ) - key.height.val < parameters.commitTtlBlocks.val }

/-- The evidence of a block becomes pending COMMITs. -/
def addEvidence (referenced : List ReferencedCommit) : State :=
  { state with commits := referenced.foldl (fun commits evidence ↦
      commits.set evidence.reference (parseField evidence.commitment.bytes)) state.commits }

/-- Some action of the transaction spends the head. -/
def spends (transaction : Transaction) (head : Head) : Bool :=
  transaction.actions.any fun action ↦ parseField action.nullifier.bytes = head.futureNf

/-- `spent`: the heads an action spends, in the order of the dictionary. -/
def spent (transaction : Transaction) : List (NameId × StateRef) :=
  (state.heads.entries.filter fun entry ↦ spends transaction entry.2).map fun entry ↦
    (entry.1, entry.2.producer)

variable (parameters : Parameters) (valid : List UInt8 → Bool) (height : U32)
  (transaction : Transaction)

/-- `_apply_reveal`. -/
def applyReveal (op : Reveal) : Except SemanticError ((Bool × String) × State) := do
  let canonical ← parseName op.name.asStr
  let identity ← nameId canonical
  if (state.heads.get? identity).isSome then .ok ((false, "NAMES.REVEAL.MISSING"), state)
  else
    let age : ℤ := (height.val : ℤ) - op.commit.height.val
    let window ← operationWindow parameters canonical height
    if window = false ∨ op.commit.height.val < parameters.activationHeight.val ∨
        age < parameters.commitMaturityBlocks.val ∨ age ≥ parameters.commitTtlBlocks.val then
      .ok ((false, if window = false then "NAMES.REVEAL.SCHEDULE" else "NAMES.REVEAL.COMMIT"),
        state)
    else
      match state.commits.get? op.commit with
      | none => .ok ((false, "NAMES.REVEAL.COMMIT"), state)
      | some _ =>
        match transaction.actions[op.actionIndex.val]? with
        | none => .ok ((false, "NAMES.REVEAL.ACTION"), state)
        | some action =>
          if action.actionIndex ≠ op.actionIndex then .ok ((false, "NAMES.REVEAL.ACTION"), state)
          else if valid op.proof = false then .ok ((false, "NAMES.REVEAL.PROOF"), state)
          else
            let head := installed parameters height transaction canonical op.ua
              op.actionIndex action
              op.successorFutureNf
            .ok ((true, "NAMES.REVEAL.ACCEPT"),
              { state with heads := state.heads.set identity head })

/-- `_apply_refresh`. -/
def applyRefresh (op : Refresh) : Except SemanticError ((Bool × String) × State) := do
  let canonical ← parseName op.name.asStr
  let identity ← nameId canonical
  match state.heads.get? identity with
  | none => .ok ((false, "NAMES.REFRESH.CURRENT"), state)
  | some predecessor =>
    let epoch := (height.val - parameters.activationHeight.val) / parameters.epochBlocks.val
    if lifecycle parameters predecessor height ≠ .active ∨ predecessor.producer ≠
      op.predecessor then
      .ok ((false, "NAMES.REFRESH.CURRENT"), state)
    else if predecessor.producerEpoch ≥ epoch then .ok ((false, "NAMES.REFRESH.EPOCH"), state)
    else
      let window ← operationWindow parameters canonical height
      if window = false then .ok ((false, "NAMES.REFRESH.SCHEDULE"), state)
      else
        match transaction.actions[op.actionIndex.val]? with
        | none => .ok ((false, "NAMES.REFRESH.ACTION"), state)
        | some action =>
          if action.actionIndex ≠ op.actionIndex ∨
              parseField action.nullifier.bytes ≠ predecessor.futureNf then
            .ok ((false, "NAMES.REFRESH.ACTION"), state)
          else if valid op.proof = false then .ok ((false, "NAMES.REFRESH.PROOF"), state)
          else
            let head := installed parameters height transaction canonical op.ua
              op.actionIndex action
              op.successorFutureNf
            .ok ((true, "NAMES.REFRESH.ACCEPT"),
              { state with heads := state.heads.set identity head })

/-- The operation of a transaction. -/
def applyOperation : Except SemanticError ((Bool × String) × State) :=
  match transaction.operation with
  | some (.commit commitment) =>
    let reference : CommitRef := ⟨height, transaction.txIndex, transaction.txid⟩
    .ok ((true, "NAMES.COMMIT.ACCEPT"),
      { state with commits := state.commits.set reference (parseField commitment.bytes) })
  | some (.reveal op) => state.applyReveal parameters valid height transaction op
  | some (.refresh op) => state.applyRefresh parameters valid height transaction op
  | none => .ok ((false, "NAMES.BLOCK.ORDER"), state)

/-- One step of the loop over `spent`. -/
def spend (height : U32) (result : List Transition × State) (entry : NameId × StateRef) :
    List Transition × State :=
  let (transitions, state) := result
  let (identity, producer) := entry
  match state.heads.get? identity with
  | none => result
  | some head =>
    if head.producer = producer ∧ head.terminalHeight = none then
      (transitions ++ [⟨"NAMES.SPEND.CURRENT", height, identity, producer, "Terminated"⟩],
        { state with
          heads := state.heads.set identity { head with terminalHeight := some height.val } })
    else result

/-- `_apply_transaction`. -/
def applyTransaction : Except SemanticError ((TracedOperation × List Transition) × State) := do
  let spent := state.spent transaction
  let ((accepted, clauseId), state) ← state.applyOperation parameters valid height transaction
  let (transitions, state) := spent.foldl (spend height) ([], state)
  return ((⟨transaction.txIndex, kind transaction, some accepted, clauseId⟩, transitions), state)

/-- The transaction loop of `apply`: the decisions and the transitions. -/
def applyTransactions (state : State) (parameters : Parameters) (valid : List UInt8 → Bool)
    (height : U32) :
    List Transaction → Except SemanticError ((List TracedOperation × List Transition) × State)
  | [] => .ok (([], []), state)
  | transaction :: rest => do
    let ((decision, transitions), state) ←
      state.applyTransaction parameters valid height transaction
    let ((decisions, later), state) ← state.applyTransactions parameters valid height rest
    return ((decision :: decisions, transitions ++ later), state)

/-- The phases before the transactions. -/
def startBlock (height : U32) (referenced : List ReferencedCommit) : List Transition × State :=
  let (transitions, state) := (state.markExpired height).compactClaimable parameters height
  (transitions, (state.pruneCommits parameters height).addEvidence referenced)

end State

/-- `str.title`, on the kinds of operations. -/
def title (kind : String) : String :=
  if kind = "commit" then "Commit" else if kind = "reveal" then "Reveal"
  else if kind = "refresh" then "Refresh" else "Inert"

namespace Reducer

variable (reducer : Reducer)

/-- `apply`. -/
def apply (valid : List UInt8 → Bool) (block : Block) (referenced : List ReferencedCommit) :
    Except SemanticError (ApplyResult × Reducer) := do
  validateValues block.transactions
  match reducer.validateBlock block referenced with
  | some error =>
    let clauseId := applyErrorClause error
    return (.refused clauseId error (notEvaluated block clauseId), reducer)
  | none =>
    let height := block.height
    let (transitions, state) :=
      reducer.toState.startBlock reducer.parameters height referenced
    let ((decisions, later), state) ←
      state.applyTransactions reducer.parameters valid height block.transactions
    let accepted := (decisions.filter fun decision ↦ decision.accepted = some true).map
      fun decision ↦ title decision.kind
    return (.applied accepted decisions (transitions ++ later),
      { commits := state.commits
        heads := state.heads
        nextHeight := if height.val < 4294967295 then some (height.val + 1) else none
        tip := some ⟨height, block.hash⟩
        previousHash := block.hash
        parameters := reducer.parameters
        history := reducer.history ++ [reducer.toState] })

/-- `rollback`. -/
def rollback (expectedHash : Bytes32) : Option String × Reducer :=
  match reducer.history.getLast? with
  | none => (some (if reducer.tip.isSome then "BeyondRetention" else "NoAppliedBlock"), reducer)
  | some previous =>
    if reducer.tip.all (·.hash ≠ expectedHash) then (some "WrongTipHash", reducer)
    else (none,
      { previous with
        parameters := reducer.parameters
        history := reducer.history.dropLast })

/-! ### Traces -/

/-- `snapshot`. -/
def snapshot (tracked : Tracked) : Except SemanticError TracedState := do
  let height := (reducer.tip.map ReducerTip.height).getD reducer.parameters.activationHeight
  let resolutions ← tracked.names.mapM fun name ↦ do
    let resolution ←
      if reducer.tip.isSome then reducer.resolve name height
      else pure (.failed "NAMES.EXACT.PARITY" "IncompleteHistory" height none)
    return (name, resolution)
  return {
    tip := reducer.tip
    resolutions := resolutions
    pendingCommits := tracked.commitRefs.map fun reference ↦
      (reference, (reducer.commits.get? reference).map fieldHex) }

/-- One step of `run_case`. -/
def traceStep (valid : List UInt8 → Bool) (tracked : Tracked) :
    Step → Except SemanticError (TraceEntry × Reducer)
  | .apply block referenced => do
    let (result, next) ← reducer.apply valid block referenced
    return (⟨.apply result, ← next.snapshot tracked⟩, next)
  | .rollback expected => do
    let (error, next) := reducer.rollback expected
    let result : RollbackResult := ⟨error.isNone, error, "NAMES.ROLLBACK.EXACT"⟩
    return (⟨.rollback result, ← next.snapshot tracked⟩, next)

/-- `run_case`, for the full reducer. -/
def trace (reducer : Reducer) (valid : List UInt8 → Bool) (tracked : Tracked) :
    List Step → Except SemanticError (List TraceEntry)
  | [] => .ok []
  | step :: steps => do
    let (entry, next) ← reducer.traceStep valid tracked step
    return entry :: (← next.trace valid tracked steps)

/-- The first entry of a trace. -/
theorem trace_cons_eq_ok_iff {valid : List UInt8 → Bool} {tracked : Tracked} {step : Step}
    {steps : List Step} {entries : List TraceEntry} :
    reducer.trace valid tracked (step :: steps) = .ok entries ↔
      ∃ entry next rest, reducer.traceStep valid tracked step = .ok (entry, next) ∧
        next.trace valid tracked steps = .ok rest ∧ entries = entry :: rest := by
  rw [trace]
  constructor
  · intro h
    obtain ⟨⟨entry, next⟩, hstep, h⟩ := Except.bind_eq_ok_iff.1 h
    obtain ⟨rest, hrest, h⟩ := Except.bind_eq_ok_iff.1 h
    exact ⟨entry, next, rest, hstep, hrest, (Except.ok.inj h).symm⟩
  · rintro ⟨entry, next, rest, hstep, hrest, rfl⟩
    exact Except.bind_eq_ok_iff.2 ⟨_, hstep, Except.bind_eq_ok_iff.2 ⟨rest, hrest, rfl⟩⟩

end Reducer

end Model

end Checker

end CoppiceNames
