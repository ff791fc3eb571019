import CoppiceNames.Protocol.Windows
import CoppiceNames.Reducer.Runs

/-!
# Arithmetic that can panic

The schedule and the reducer once more, with every operation of the source that is not checked in a
form that can panic: a `-` below zero, a `+` beyond its type, a `/` or a `%` by zero, a conversion
with `expect`. A panic is `none`.

Valid parameters guard every one of them, so each function here returns what the one it repeats
returns (`epoch_eq` and so on), whatever it is applied to. The verdicts are then those of plain
arithmetic: a checked sum of the source fails only for a height whose lease does not fit `u32`
either.
-/

open Std hiding not_le not_lt

namespace CoppiceNames

namespace Trapping

/-! ### Operations -/

/-- `-` on `u32`. -/
def sub (a b : U32) : Option U32 :=
  if b ≤ a then some (a - b) else none

/-- `+` on `u32`. -/
def add (a b : U32) : Option U32 :=
  if a.val + b.val ≤ 4294967295 then some (a + b) else none

/-- `/` on `u32`. -/
def div (a b : U32) : Option U32 :=
  if b = 0 then none else some (a / b)

/-- `%` on `u64`. -/
def rem (a b : ℕ) : Option ℕ :=
  if b = 0 then none else some (a % b)

/-- `+` on `u64`. -/
def addU64 (a b : ℕ) : Option ℕ :=
  if a + b < 18446744073709551616 then some (a + b) else none

theorem sub_of_le {a b : U32} (h : b ≤ a) : sub a b = some (a - b) :=
  if_pos h

section Schedule

variable [Primitives] (parameters : Parameters)

/-! ### Schedule -/

/-- `Parameters::epoch`. -/
def epoch (height : U32) : Option (Except ScheduleError U32) :=
  if height < parameters.activationHeight then some (.error .beforeActivation)
  else do
    let elapsed ← sub height parameters.activationHeight
    return .ok (← div elapsed parameters.epochBlocks)

/-- `Parameters::offset`. -/
def offset (nameId : NameId) : Option U32 := do
  let digest := Primitives.blake2b256 (lit "CoppiceNmOff")
    (parameters.deploymentId.toList ++ nameId.bytes.toList)
  let value := leNat (digest.toList.take 8)
  let span ← add (← sub parameters.epochBlocks parameters.windowBlocks) 1
  U32.ofUsize (← rem value span.val)

/-- `Parameters::window`. -/
def window (nameId : NameId) (epoch : U32) : Option (Except ScheduleError Window) :=
  match parameters.validate with
  | .error e => some (.error e)
  | .ok () =>
    match U32.checkedMul epoch parameters.epochBlocks with
    | none => some (.error .overflow)
    | some epochOffset =>
      match U32.checkedAdd parameters.activationHeight epochOffset with
      | none => some (.error .overflow)
      | some epochStart => do
        match U32.checkedAdd epochStart (← offset parameters nameId) with
        | none => return .error .overflow
        | some start =>
          match U32.checkedAdd start parameters.windowBlocks with
          | none => return .error .overflow
          | some stop => return .ok ⟨start, stop⟩

/-- `Parameters::accepts_operation`. -/
def acceptsOperation (nameId : NameId) (height : U32) : Option Bool := do
  match ← epoch parameters height with
  | .error _ => return false
  | .ok epoch =>
    match ← window parameters nameId epoch with
    | .error _ => return false
    | .ok window => return window.contains height

/-- `Parameters::accepts_commit`. -/
def acceptsCommit (commitHeight revealHeight : U32) : Option Bool :=
  if commitHeight < parameters.activationHeight ∨ revealHeight < commitHeight then some false
  else do
    let age ← sub revealHeight commitHeight
    return decide (age ≥ parameters.commitMaturityBlocks) &&
      decide (age < parameters.commitTtlBlocks)

variable {parameters}

omit [Primitives] in
theorem epoch_eq (hvalid : parameters.Valid) (height : U32) :
    epoch parameters height = some (parameters.epoch height) := by
  rw [epoch, Parameters.epoch]
  by_cases hbefore : height < parameters.activationHeight
  · rw [if_pos hbefore, if_pos hbefore]
  · rw [if_neg hbefore, if_neg hbefore, sub_of_le (not_lt.1 hbefore)]
    have hne : parameters.epochBlocks ≠ 0 := Fin.pos_iff_ne_zero.1 hvalid.epoch_pos
    simp [div, hne]

/-- The span of offsets is at least one and at most an epoch. -/
theorem offset_eq (hvalid : parameters.Valid) (nameId : NameId) :
    offset parameters nameId = some (parameters.offset nameId) := by
  have hle : parameters.windowBlocks ≤ parameters.epochBlocks :=
    hvalid.window_le.trans (hvalid.maturity_lt.trans hvalid.ttl_lt).le
  have hsub := Fin.sub_val_of_le hle
  have hpos : 0 < parameters.windowBlocks.val := hvalid.window_pos
  have hlt := parameters.epochBlocks.isLt
  have hadd : add (parameters.epochBlocks - parameters.windowBlocks) 1 =
      some (parameters.epochBlocks - parameters.windowBlocks + 1) := by
    refine if_pos ?_
    rw [hsub, show (1 : U32).val = 1 from rfl]
    omega
  have hspan : (parameters.epochBlocks - parameters.windowBlocks + 1).val ≠ 0 := by
    rw [Fin.val_add_one_of_lt', hsub]
    · omega
    · omega
  have hrem : ∀ value, ∃ r, rem value (parameters.epochBlocks - parameters.windowBlocks + 1).val =
      some r ∧ U32.ofUsize r = some (Fin.ofNat _ r) ∧
        r = value % (parameters.epochBlocks - parameters.windowBlocks + 1).val := by
    intro value
    refine ⟨_, if_neg hspan, U32.ofUsize_eq_some_iff.2 (Nat.mod_eq_of_lt ?_), rfl⟩
    exact (Nat.mod_lt _ (Nat.pos_of_ne_zero hspan)).trans (Fin.isLt _)
  obtain ⟨r, hr, hconvert, heq⟩ := hrem (leNat ((Primitives.blake2b256 (lit "CoppiceNmOff")
    (parameters.deploymentId.toList ++ nameId.bytes.toList)).toList.take 8))
  rw [offset, sub_of_le hle]
  simp only [Option.bind_eq_bind, Option.bind_some, hadd, hr, hconvert]
  rw [Parameters.offset, heq]

/-- `Parameters::window` validates its parameters itself. -/
theorem window_eq (parameters : Parameters) (nameId : NameId) (epoch : U32) :
    window parameters nameId epoch = some (parameters.window nameId epoch) := by
  rw [window, Parameters.window]
  rcases hvalidate : parameters.validate with e | ⟨⟩
  · rfl
  have hoffset := offset_eq (Parameters.valid_of_validate hvalidate) nameId
  dsimp only
  rcases hoffset' : U32.checkedMul epoch parameters.epochBlocks with - | epochOffset
  · simp [bind, Except.bind]
  rcases hstart : U32.checkedAdd parameters.activationHeight epochOffset with - | epochStart
  · simp [hstart, bind, Except.bind]
  rcases hfrom : U32.checkedAdd epochStart (parameters.offset nameId) with - | start
  · simp [hstart, hoffset, hfrom, bind, Except.bind]
  rcases huntil : U32.checkedAdd start parameters.windowBlocks with - | stop
  · simp [hstart, hoffset, hfrom, huntil, bind, Except.bind]
  · simp [hstart, hoffset, hfrom, huntil, bind, Except.bind, pure, Except.pure]

theorem acceptsOperation_eq (hvalid : parameters.Valid) (nameId : NameId) (height : U32) :
    acceptsOperation parameters nameId height =
      some (parameters.acceptsOperation nameId height) := by
  rw [acceptsOperation, Parameters.acceptsOperation, epoch_eq hvalid]
  rcases parameters.epoch height with e | epoch
  · rfl
  simp only [Option.bind_eq_bind, Option.bind_some, window_eq]
  rcases parameters.window nameId epoch with e | window
  · rfl
  · rfl

omit [Primitives] in
theorem acceptsCommit_eq (parameters : Parameters) (commitHeight revealHeight : U32) :
    acceptsCommit parameters commitHeight revealHeight =
      some (parameters.acceptsCommit commitHeight revealHeight) := by
  rw [acceptsCommit, Parameters.acceptsCommit]
  by_cases hout : commitHeight < parameters.activationHeight ∨ revealHeight < commitHeight
  · rw [if_pos hout, if_pos hout]
  · rw [if_neg hout, if_neg hout, sub_of_le (not_lt.1 (not_or.1 hout).2)]
    rfl

/-- The loop of `operation_windows_descending`. -/
def clippedWindows (parameters : Parameters) (nameId : NameId) (start stop : U32) :
    List U32 → Option (Except ScheduleError (List (Option Window)))
  | [] => some (.ok [])
  | epoch :: rest => do
    match ← window parameters nameId epoch with
    | .error e => return .error e
    | .ok window =>
      let clipped : Window := ⟨max window.start start, min window.stop stop⟩
      let kept := if clipped.start < clipped.stop then some clipped else none
      match ← clippedWindows parameters nameId start stop rest with
      | .error e => return .error e
      | .ok windows => return .ok (kept :: windows)

/-- `Parameters::operation_windows_descending`. -/
def operationWindowsDescending (parameters : Parameters) (nameId : NameId) (start stop : U32) :
    Option (Except ScheduleError (List Window)) :=
  match parameters.validate with
  | .error e => some (.error e)
  | .ok () =>
    if start ≥ stop then some (.error .invalidRange)
    else
      let effectiveStart := max start parameters.activationHeight
      if effectiveStart ≥ stop then some (.ok [])
      else do
        match ← epoch parameters effectiveStart with
        | .error e => return .error e
        | .ok first =>
          match ← epoch parameters (← sub stop 1) with
          | .error e => return .error e
          | .ok last =>
            match ← clippedWindows parameters nameId effectiveStart stop
                (Parameters.epochsDescending first last) with
            | .error e => return .error e
            | .ok windows => return .ok windows.reduceOption

theorem clippedWindows_eq (parameters : Parameters) (nameId : NameId) (start stop : U32)
    (epochs : List U32) : clippedWindows parameters nameId start stop epochs =
      some (epochs.mapM (parameters.clippedWindow nameId start stop)) := by
  induction epochs with
  | nil => rfl
  | cons epoch rest ih =>
    rw [clippedWindows, List.mapM_cons, Parameters.clippedWindow, window_eq, ih]
    simp only [Option.bind_eq_bind, Option.bind_some]
    rcases parameters.window nameId epoch with e | window
    · rfl
    rcases rest.mapM (parameters.clippedWindow nameId start stop) with e | windows
    · rfl
    · rfl

/-- The last height of a range is taken only when the range is not empty. -/
theorem operationWindowsDescending_eq (hvalid : parameters.Valid) (nameId : NameId)
    (start stop : U32) : operationWindowsDescending parameters nameId start stop =
      some (parameters.operationWindowsDescending nameId start stop) := by
  rw [operationWindowsDescending, Parameters.operationWindowsDescending]
  rcases parameters.validate with e | ⟨⟩
  · rfl
  dsimp only
  split
  · rfl
  split
  · rfl
  rename_i hbefore
  have hpos : (1 : U32) ≤ stop := by
    have hlt : (max start parameters.activationHeight).val < stop.val := not_le.1 hbefore
    rw [Fin.le_def, show (1 : U32).val = 1 from rfl]
    omega
  simp only [epoch_eq hvalid, sub_of_le hpos, clippedWindows_eq, Option.bind_eq_bind,
    Option.bind_some]
  rcases parameters.epoch (max start parameters.activationHeight) with e | first
  · rfl
  rcases parameters.epoch (stop - 1) with e | last
  · rfl
  rcases hloop : (Parameters.epochsDescending first last).mapM (parameters.clippedWindow nameId
    (max start parameters.activationHeight) stop) with e | windows
  · simp [hloop, bind, Except.bind]
  · simp [hloop, bind, Except.bind, pure, Except.pure]

end Schedule

/-! ### Heads -/

section Heads

variable [Primitives] (head : Head)

/-- `Head::is_claimable`, with the sum of two `u32` in `u64`. -/
def isClaimable (height : U32) (parameters : Parameters) : Option Bool :=
  match head.terminalAt height with
  | none => some false
  | some terminal => do
    let claimable ← addU64 terminal.val parameters.cooldownBlocks.val
    return decide (height.val ≥ claimable)

/-- `Head::lifecycle`. -/
def lifecycle (height : U32) (parameters : Parameters) : Option Lifecycle :=
  match head.terminalAt height with
  | none => some .active
  | some _ => do
    return if ← isClaimable head height parameters then .missing else .cooldown

theorem isClaimable_eq (height : U32) (parameters : Parameters) :
    isClaimable head height parameters = some (head.isClaimable height parameters) := by
  rw [isClaimable, Head.isClaimable]
  rcases head.terminalAt height with - | terminal
  · rfl
  · have hsum : terminal.val + parameters.cooldownBlocks.val < 18446744073709551616 := by
      have hterminal := terminal.isLt
      have hcooldown := parameters.cooldownBlocks.isLt
      omega
    simp only [addU64, if_pos hsum]
    rfl

theorem lifecycle_eq (height : U32) (parameters : Parameters) :
    lifecycle head height parameters = some (head.lifecycle height parameters) := by
  rw [lifecycle, Head.lifecycle, isClaimable_eq]
  rcases head.terminalAt height with - | terminal
  · rfl
  · rfl

end Heads

/-! ### Operations of a transaction -/

section Operations

variable [Primitives] (ledger : Ledger) (rules : Rules) (height : U32) (transaction : Transaction)

/-- `apply_reveal`, up to what it writes. -/
def revealed (op : Reveal) : Option (Except Clause (NameId × Head)) :=
  let parameters := rules.parameters
  match op.name.id with
  | .error _ => some (.error .revealMissing)
  | .ok nameId =>
    if ledger.heads.contains nameId then some (.error .revealMissing)
    else do
      if (← acceptsOperation parameters nameId height) = false then
        return .error .revealSchedule
      else if (← acceptsCommit parameters op.commit.height height) = false then
        return .error .revealCommit
      else
        match ledger.commits[op.commit]? with
        | none => return .error .revealCommit
        | some commitment =>
          match transaction.actions[op.actionIndex.val]? with
          | none => return .error .revealAction
          | some action =>
            if action.actionIndex ≠ op.actionIndex then return .error .revealAction
            else
              match ← epoch parameters height with
              | .error _ => return .error .revealSchedule
              | .ok epoch =>
                let statement : RevealStatement :=
                  { deploymentId := parameters.deploymentId
                    nameId := nameId
                    inclusionEpoch := epoch
                    commitment := commitment
                    commitRef := op.commit
                    ua := op.ua
                    actionIndex := op.actionIndex
                    actionNullifier := action.nullifier
                    actionCommitment := action.commitment
                    successorFutureNf := op.successorFutureNf }
                if rules.verifier.verifyReveal statement op.proof = false then
                  return .error .revealProof
                else
                  match parameters.expiry height with
                  | .error _ => return .error .revealSchedule
                  | .ok expiry => return .ok (nameId, transaction.successor height op.name op.ua
                      op.actionIndex action.commitment op.successorFutureNf epoch expiry)

theorem revealed_eq (op : Reveal) : revealed ledger rules height transaction op =
    some (ledger.revealed rules height transaction op) := by
  rw [revealed, Ledger.revealed]
  rcases op.name.id with e | nameId
  · rfl
  simp only [acceptsOperation_eq rules.valid, acceptsCommit_eq, epoch_eq rules.valid,
    Option.bind_eq_bind, Option.bind_some]
  split
  · rfl
  split
  · rfl
  split
  · rfl
  rcases ledger.commits[op.commit]? with - | commitment
  · rfl
  rcases transaction.actions[op.actionIndex.val]? with - | action
  · rfl
  dsimp only
  split
  · rfl
  rcases rules.parameters.epoch height with e | epoch
  · rfl
  dsimp only
  split
  · rfl
  rcases rules.parameters.expiry height with e | expiry
  · rfl
  · rfl

/-- `apply_refresh`, up to what it writes. -/
def refreshed (op : Refresh) : Option (Except Clause (NameId × Head)) :=
  let parameters := rules.parameters
  match op.name.id with
  | .error _ => some (.error .refreshCurrent)
  | .ok nameId =>
    match ledger.heads[nameId]? with
    | none => some (.error .refreshCurrent)
    | some predecessor => do
      match ← epoch parameters height with
      | .error _ => return .error .refreshSchedule
      | .ok epoch =>
        if (← lifecycle predecessor height parameters) ≠ .active ∨
            predecessor.producer ≠ op.predecessor then return .error .refreshCurrent
        else if predecessor.producerEpoch ≥ epoch then return .error .refreshEpoch
        else if (← acceptsOperation parameters nameId height) = false then
          return .error .refreshSchedule
        else
          match transaction.actions[op.actionIndex.val]? with
          | none => return .error .refreshAction
          | some action =>
            if action.actionIndex ≠ op.actionIndex ∨ action.nullifier ≠ predecessor.futureNf then
              return .error .refreshAction
            else
              let statement : RefreshStatement :=
                { deploymentId := parameters.deploymentId
                  nameId := nameId
                  predecessorRef := op.predecessor
                  predecessorCommitment := predecessor.commitment
                  predecessorFutureNf := predecessor.futureNf
                  predecessorEpoch := predecessor.producerEpoch
                  inclusionEpoch := epoch
                  ua := op.ua
                  actionIndex := op.actionIndex
                  actionNullifier := action.nullifier
                  actionCommitment := action.commitment
                  successorFutureNf := op.successorFutureNf }
              if rules.verifier.verifyRefresh statement op.proof = false then
                return .error .refreshProof
              else
                match parameters.expiry height with
                | .error _ => return .error .refreshSchedule
                | .ok expiry => return .ok (nameId, transaction.successor height op.name op.ua
                    op.actionIndex action.commitment op.successorFutureNf epoch expiry)

theorem refreshed_eq (op : Refresh) : refreshed ledger rules height transaction op =
    some (ledger.refreshed rules height transaction op) := by
  rw [refreshed, Ledger.refreshed]
  rcases op.name.id with e | nameId
  · rfl
  dsimp only
  rcases ledger.heads[nameId]? with - | predecessor
  · rfl
  simp only [acceptsOperation_eq rules.valid, lifecycle_eq, epoch_eq rules.valid,
    Option.bind_eq_bind, Option.bind_some]
  rcases rules.parameters.epoch height with e | epoch
  · rfl
  dsimp only
  split
  · rfl
  split
  · rfl
  split
  · rfl
  rcases transaction.actions[op.actionIndex.val]? with - | action
  · rfl
  dsimp only
  split
  · rfl
  split
  · rfl
  rcases rules.parameters.expiry height with e | expiry
  · rfl
  · rfl

/-- The operation step of `apply_transaction_detailed`. -/
def applyOperation (o : OpenBlock) : Option (OperationDecision × OpenBlock) :=
  match transaction.operation with
  | some (.commit commitment) =>
    let reference : CommitRef := ⟨height, transaction.txIndex, transaction.txid⟩
    some (⟨some .commit, .commitAccept⟩, o.writeCommit reference (some commitment))
  | some (.reveal op) => do
    match ← revealed o.records.ledger rules height transaction op with
    | .ok (nameId, head) => return (⟨some .reveal, .revealAccept⟩, o.writeHead nameId (some head))
    | .error clause => return (⟨none, clause⟩, o)
  | some (.refresh op) => do
    match ← refreshed o.records.ledger rules height transaction op with
    | .ok (nameId, head) => return (⟨some .refresh, .refreshAccept⟩, o.writeHead nameId (some head))
    | .error clause => return (⟨none, clause⟩, o)
  | none => some (⟨none, .blockOrder⟩, o)

theorem applyOperation_eq (o : OpenBlock) : applyOperation rules height transaction o =
    some (o.applyOperation rules height transaction) := by
  rw [applyOperation, OpenBlock.applyOperation]
  rcases transaction.operation with - | (commitment | op | op)
  · rfl
  · rfl
  · simp only [revealed_eq, Option.bind_eq_bind, Option.bind_some]
    rcases o.records.ledger.revealed rules height transaction op with clause | entry
    · rfl
    · rfl
  · simp only [refreshed_eq, Option.bind_eq_bind, Option.bind_some]
    rcases o.records.ledger.refreshed rules height transaction op with clause | entry
    · rfl
    · rfl

/-- `apply_transaction_detailed`. -/
def applyTransactionDetailed (o : OpenBlock) (terminated : List Termination) :
    Option (OperationDecision × List Termination × OpenBlock) := do
  let spent ← o.spent transaction
  let (decision, o) ← applyOperation rules height transaction o
  return (decision, spent.foldl (OpenBlock.spend height) (terminated, o))

theorem applyTransactionDetailed_eq (o : OpenBlock) (terminated : List Termination) :
    applyTransactionDetailed rules height transaction o terminated =
      o.applyTransactionDetailed rules height transaction terminated := by
  simp only [applyTransactionDetailed, OpenBlock.applyTransactionDetailed, applyOperation_eq,
    Option.bind_eq_bind, Option.bind_some]

/-- The transaction loop of `apply_block_detailed`. -/
def applyTransactions (o : OpenBlock) (transactions : List Transaction) :
    Option (List OperationDecision × List Termination × OpenBlock) :=
  transactions.foldlM (fun (decisions, terminated, o) transaction ↦ do
    let (decision, terminated, o) ← applyTransactionDetailed rules height transaction o terminated
    return (decisions ++ [decision], terminated, o)) ([], [], o)

theorem applyTransactions_eq (o : OpenBlock) (transactions : List Transaction) :
    applyTransactions rules height o transactions =
      o.applyTransactions rules height transactions := by
  simp only [applyTransactions, applyTransactionDetailed_eq]
  rfl

end Operations

/-! ### Blocks -/

section Blocks

variable [Primitives]

/-- The range check on a piece of evidence. The age is taken only when no earlier test applies. -/
def evidenceOutOfRange (parameters : Parameters) (block : Block) (reference : CommitRef) :
    Option Bool :=
  if reference ∉ block.revealReferences ∨ reference.height < parameters.activationHeight ∨
      reference.height ≥ block.height then some true
  else do
    let age ← sub block.height reference.height
    return decide (age ≥ parameters.commitTtlBlocks)

/-- The loop over the evidence. -/
def supply (parameters : Parameters) (commits : OrderedMap CommitRef Commitment) (block : Block)
    (supplied : OrderedMap CommitRef Commitment) :
    List ReferencedCommit → Option (Except ApplyError (OrderedMap CommitRef Commitment))
  | [] => some (.ok supplied)
  | evidence :: rest => do
    let reference := evidence.reference
    if ← evidenceOutOfRange parameters block reference then
      return .error .invalidReferencedCommit
    else if (supplied[reference]?).any (· ≠ evidence.commitment) ∨
        (commits[reference]?).any (· ≠ evidence.commitment) then
      return .error .conflictingReferencedCommit
    else supply parameters commits block (supplied.insert reference evidence.commitment) rest

theorem evidenceOutOfRange_eq (parameters : Parameters) (block : Block) (reference : CommitRef) :
    evidenceOutOfRange parameters block reference = some (decide
      (reference ∉ block.revealReferences ∨ reference.height < parameters.activationHeight ∨
        reference.height ≥ block.height ∨
        block.height - reference.height ≥ parameters.commitTtlBlocks)) := by
  rw [evidenceOutOfRange]
  by_cases hout : reference ∉ block.revealReferences ∨
      reference.height < parameters.activationHeight ∨ reference.height ≥ block.height
  · rw [if_pos hout, eq_comm, Option.some.injEq, decide_eq_true_eq]
    exact hout.imp_right fun h ↦ h.imp_right Or.inl
  · have hlt : reference.height < block.height :=
      not_le.1 fun h ↦ hout (Or.inr (Or.inr h))
    rw [if_neg hout, sub_of_le hlt.le]
    show some (decide _) = some (decide _)
    rw [Option.some.injEq, decide_eq_decide]
    exact ⟨fun h ↦ Or.inr (Or.inr (Or.inr h)), fun h ↦ by tauto⟩

theorem supply_eq (parameters : Parameters) (commits : OrderedMap CommitRef Commitment)
    (block : Block) (supplied : OrderedMap CommitRef Commitment)
    (evidence : List ReferencedCommit) :
    supply parameters commits block supplied evidence =
      some (CoppiceNames.supply parameters commits block supplied evidence) := by
  induction evidence generalizing supplied with
  | nil => rfl
  | cons entry rest ih =>
    rw [supply, CoppiceNames.supply, evidenceOutOfRange_eq]
    simp only [Option.bind_eq_bind, Option.bind_some, decide_eq_true_eq]
    split
    · rfl
    split
    · rfl
    · exact ih _

/-- The checks of `apply_block_detailed`. -/
def admission (parameters : Parameters) (nextHeight : Option U32) (previousHash : Bytes32)
    (commits : OrderedMap CommitRef Commitment) (block : Block) (evidence : List ReferencedCommit) :
    Option (Except ApplyError (OrderedMap CommitRef Commitment)) :=
  if some block.height ≠ nextHeight then some (.error .wrongHeight)
  else if block.prevHash ≠ previousHash then some (.error .wrongPreviousHash)
  else
    match checkTransactions none block.transactions with
    | .error e => some (.error e)
    | .ok () => supply parameters commits block ∅ evidence

theorem admission_eq (parameters : Parameters) (nextHeight : Option U32) (previousHash : Bytes32)
    (commits : OrderedMap CommitRef Commitment) (block : Block)
    (evidence : List ReferencedCommit) :
    admission parameters nextHeight previousHash commits block evidence =
      some (CoppiceNames.admission parameters nextHeight previousHash commits block evidence) := by
  rw [admission, CoppiceNames.admission]
  split
  · rfl
  split
  · rfl
  rcases checkTransactions none block.transactions with e | ⟨⟩
  · rfl
  · exact supply_eq _ _ _ _ _

/-- `apply_block_detailed`. -/
def applyBlockDetailed (reducer : Reducer) (block : Block)
    (referencedCommits : List ReferencedCommit) :
    Option (Except ApplyError BlockOutcome × Reducer) := do
  match ← admission reducer.rules.parameters reducer.nextHeight reducer.previousHash
      reducer.commits block referencedCommits with
  | .error e => return (.error e, reducer)
  | .ok supplied =>
    let fromTip := reducer.tip
    let (compacted, o) ← reducer.startBlock block.height supplied
    let (decisions, terminated, o) ←
      applyTransactions reducer.rules block.height o block.transactions
    let applied := reducer.closeBlock block o
    return (.ok
      { accepted := decisions.filterMap OperationDecision.accepted
        decisions := decisions
        compacted := compacted
        terminated := terminated
        stateDelta := applied.deltaFromUndo fromTip applied.tip o.journal }, applied)

/-- **No arithmetic of a block panics.** -/
theorem applyBlockDetailed_eq (reducer : Reducer) (block : Block)
    (referencedCommits : List ReferencedCommit) :
    applyBlockDetailed reducer block referencedCommits =
      reducer.applyBlockDetailed block referencedCommits := by
  rw [applyBlockDetailed, Reducer.applyBlockDetailed, admission_eq]
  simp only [Option.bind_eq_bind, Option.bind_some, applyTransactions_eq]
  rcases CoppiceNames.admission reducer.rules.parameters reducer.nextHeight reducer.previousHash
    reducer.commits block referencedCommits with e | supplied
  · rfl
  · rfl

end Blocks

end Trapping

/-! ### Verdicts in plain arithmetic -/

section Verdicts

variable [Primitives]

namespace Parameters

variable {parameters : Parameters}

/-- Where a lease fits, so does any window that holds the height. -/
theorem acceptsOperation_iff_covers (hvalid : parameters.Valid) {nameId : NameId} {height : U32}
    (hlease : height.val + parameters.leaseBlocks.val ≤ 4294967295) :
    parameters.acceptsOperation nameId height = true ↔
      ∃ index, (windows hvalid nameId).Covers index height.val := by
  have hshort : parameters.windowBlocks < parameters.leaseBlocks :=
    (hvalid.window_le.trans_lt (hvalid.maturity_lt.trans hvalid.ttl_lt)).trans hvalid.epoch_lt
  rw [Fin.lt_def] at hshort
  rw [acceptsOperation_iff hvalid]
  refine exists_congr fun index ↦ and_iff_left_of_imp fun hcovers ↦ ?_
  have hstart := hcovers.1
  show (windows hvalid nameId).start index + parameters.windowBlocks.val ≤ 4294967295
  omega

/-- **The height gates of a REVEAL.** -/
theorem reveal_gates_iff (hvalid : parameters.Valid) {nameId : NameId} {commitHeight height : U32} :
    (parameters.acceptsOperation nameId height = true ∧
        parameters.acceptsCommit commitHeight height = true ∧
        (∃ epoch, parameters.epoch height = .ok epoch) ∧
        ∃ expiry, parameters.expiry height = .ok expiry) ↔
      (∃ index, (windows hvalid nameId).Covers index height.val) ∧
        parameters.activationHeight.val ≤ commitHeight.val ∧
        (parameters.commitMaturityBlocks.val : ℤ) ≤ height.val - commitHeight.val ∧
        (height.val : ℤ) - commitHeight.val < parameters.commitTtlBlocks.val ∧
        height.val + parameters.leaseBlocks.val ≤ 4294967295 := by
  rw [exists_expiry_iff, acceptsCommit_iff, Fin.le_def, Fin.le_def]
  have hmaturity := hvalid.maturity_pos
  constructor
  · rintro ⟨haccepts, ⟨hactive, hafter, hmature, hlives⟩, -, hlease⟩
    exact ⟨(acceptsOperation_iff_covers hvalid hlease).1 haccepts, hactive, by omega, by omega,
      hlease⟩
  · rintro ⟨⟨index, hcovers⟩, hactive, hmature, hlives, hlease⟩
    exact ⟨(acceptsOperation_iff_covers hvalid hlease).2 ⟨index, hcovers⟩,
      ⟨hactive, by omega, by omega, by omega⟩, ⟨_, if_neg (not_lt.2 hcovers.origin_le)⟩, hlease⟩

/-- **The height gates of a REFRESH.** -/
theorem refresh_gates_iff (hvalid : parameters.Valid) {nameId : NameId}
    {producerEpoch height : U32} :
    (parameters.acceptsOperation nameId height = true ∧
        (∃ epoch, parameters.epoch height = .ok epoch ∧ producerEpoch < epoch) ∧
        ∃ expiry, parameters.expiry height = .ok expiry) ↔
      (∃ index, (windows hvalid nameId).Covers index height.val ∧ producerEpoch.val < index) ∧
        height.val + parameters.leaseBlocks.val ≤ 4294967295 := by
  rw [exists_expiry_iff]
  constructor
  · rintro ⟨haccepts, ⟨epoch, hepoch, hlt⟩, hlease⟩
    obtain ⟨index, hcovers⟩ := (acceptsOperation_iff_covers hvalid hlease).1 haccepts
    have hindex : epoch.val = index := (epoch_eq_ok_iff.1 hepoch).2.trans hcovers.index_eq
    exact ⟨⟨index, hcovers, hindex ▸ hlt⟩, hlease⟩
  · rintro ⟨⟨index, hcovers, hlt⟩, hlease⟩
    refine ⟨(acceptsOperation_iff_covers hvalid hlease).2 ⟨index, hcovers⟩,
      ⟨_, if_neg (not_lt.2 hcovers.origin_le), ?_⟩, hlease⟩
    rw [Fin.lt_def, (epoch_eq_ok_iff.1 (if_neg (not_lt.2 hcovers.origin_le))).2]
    exact hlt.trans_eq hcovers.index_eq.symm

end Parameters

/-! ### Compaction -/

/-- The head after the expiry scan of a block carries the terminal height it has there. -/
theorem Head.terminalHeight_expire (head : Head) (height : U32) :
    (head.expire height).terminalHeight = head.terminalAt height := by
  rw [Head.expire, Head.terminalAt]
  rcases hterminal : head.terminalHeight with - | terminal
  · by_cases hexpired : head.expiryHeight ≤ height
    · rw [if_pos ⟨rfl, hexpired⟩, if_pos hexpired]
      rfl
    · rw [if_neg fun h ↦ hexpired h.2, if_neg hexpired, hterminal]
      rfl
  · rw [if_neg fun h ↦ absurd h.1 (by simp), hterminal]
    rfl

/-- The compactions of a block name the heads in the index of terminal heads. -/
theorem OpenBlock.mem_compacted_iff {o o' : OpenBlock} (hindexed : o.records.Indexed)
    {parameters : Parameters} {height : U32} {compacted : List Compaction}
    (h : o.compactClaimable parameters height = some (compacted, o')) (nameId : NameId) :
    (∃ compaction ∈ compacted, compaction.nameId = nameId) ↔
      ∃ head, o.records.heads[nameId]? = some head ∧ head.released parameters height = true := by
  rcases hlast : U32.checkedSub height parameters.cooldownBlocks with - | last
  · -- no height is a cooldown ago
    rw [OpenBlock.compactClaimable, hlast, Option.some.injEq, Prod.mk.injEq] at h
    rw [← h.1]
    refine ⟨fun hmem ↦ absurd hmem (by simp), ?_⟩
    rintro ⟨head, -, hreleased⟩
    rw [Head.released_eq_false hlast] at hreleased
    exact absurd hreleased (by decide)
  · obtain ⟨entries, hkeys, -, hcompact⟩ := OpenBlock.compactClaimable_eq hindexed hlast
    rw [hcompact, Option.some.injEq, Prod.mk.injEq] at h
    rw [← hindexed.mem_upTo_terminal hlast, ← hkeys, ← h.1]
    simp

/-- Nothing panics in a state, and its verdicts are those of plain arithmetic. -/
structure Reducer.ExactArithmetic (reducer : Reducer) : Prop where
  /-- Neither the arithmetic of a block nor a lookup panics. -/
  block : ∀ block evidence, Trapping.applyBlockDetailed reducer block evidence =
      reducer.applyBlockDetailed block evidence ∧
    (reducer.applyBlockDetailed block evidence).isSome
  windows : ∀ nameId start stop,
    Trapping.operationWindowsDescending reducer.rules.parameters nameId start stop =
      some (reducer.rules.parameters.operationWindowsDescending nameId start stop)
  lifecycle : ∀ (head : Head) height, Trapping.lifecycle head height reducer.rules.parameters =
    some (head.lifecycle height reducer.rules.parameters)
  /-- The height gates of a REVEAL. -/
  reveal : ∀ nameId commitHeight height,
    (reducer.rules.parameters.acceptsOperation nameId height = true ∧
        reducer.rules.parameters.acceptsCommit commitHeight height = true ∧
        (∃ epoch, reducer.rules.parameters.epoch height = .ok epoch) ∧
        ∃ expiry, reducer.rules.parameters.expiry height = .ok expiry) ↔
      (∃ index, (Parameters.windows reducer.rules.valid nameId).Covers index height.val) ∧
        reducer.rules.parameters.activationHeight.val ≤ commitHeight.val ∧
        (reducer.rules.parameters.commitMaturityBlocks.val : ℤ) ≤ height.val - commitHeight.val ∧
        (height.val : ℤ) - commitHeight.val < reducer.rules.parameters.commitTtlBlocks.val ∧
        height.val + reducer.rules.parameters.leaseBlocks.val ≤ 4294967295
  /-- The height gates of a REFRESH. -/
  refresh : ∀ nameId (producerEpoch : U32) height,
    (reducer.rules.parameters.acceptsOperation nameId height = true ∧
        (∃ epoch, reducer.rules.parameters.epoch height = .ok epoch ∧ producerEpoch < epoch) ∧
        ∃ expiry, reducer.rules.parameters.expiry height = .ok expiry) ↔
      (∃ index, (Parameters.windows reducer.rules.valid nameId).Covers index height.val ∧
          producerEpoch.val < index) ∧
        height.val + reducer.rules.parameters.leaseBlocks.val ≤ 4294967295
  /-- A block deletes exactly the heads whose cooldown is over. -/
  compaction : ∀ height, ∃ compacted o,
    (reducer.openBlock.markExpired height).compactClaimable reducer.rules.parameters height =
        some (compacted, o) ∧
      ∀ nameId,
        ((∃ compaction ∈ compacted, compaction.nameId = nameId) ↔
          ∃ head terminal, reducer.heads[nameId]? = some head ∧
            head.terminalAt height = some terminal ∧
            terminal.val + reducer.rules.parameters.cooldownBlocks.val ≤ height.val) ∧
        (o.records.heads[nameId]? = none ↔ reducer.heads[nameId]? = none ∨
          ∃ compaction ∈ compacted, compaction.nameId = nameId)

/-- **Checked arithmetic never changes a verdict.** -/
theorem checked_arithmetic_exact {reducer : Reducer} (hreached : Reached reducer) :
    reducer.ExactArithmetic := by
  refine ⟨fun block evidence ↦ ⟨Trapping.applyBlockDetailed_eq reducer block evidence, ?_⟩,
    Trapping.operationWindowsDescending_eq reducer.rules.valid,
    fun head height ↦ Trapping.lifecycle_eq head height _,
    fun _ _ _ ↦ Parameters.reveal_gates_iff reducer.rules.valid,
    fun _ _ _ ↦ Parameters.refresh_gates_iff reducer.rules.valid, fun height ↦ ?_⟩
  · have hcall := Reducer.call_isSome hreached.indexed (.applyBlock block evidence)
    rwa [Reducer.call, Option.isSome_map] at hcall
  obtain ⟨hmarked, hledger⟩ := (Reducer.tracks_openBlock hreached.indexed (fun _ _ ↦ trivial)
    (fun _ _ ↦ trivial) : Tracks reducer.ledger Set.univ Set.univ _).markExpired height
  obtain ⟨entries, o, hcompact, -, hafter, -⟩ :=
    hmarked.compactClaimable reducer.rules.parameters height
  have hheads : ∀ nameId : NameId, (reducer.openBlock.markExpired height).records.heads[nameId]? =
      (reducer.heads[nameId]?).map (Head.expire · height) := by
    intro nameId
    exact (congrArg (fun ledger : Ledger ↦ ledger.heads[nameId]?) hledger).trans
      (Ledger.getElem?_markExpired reducer.ledger height nameId)
  refine ⟨_, o, hcompact, fun nameId ↦ ⟨?_, ?_⟩⟩
  · rw [OpenBlock.mem_compacted_iff hmarked.indexed hcompact, hheads]
    simp only [Option.map_eq_some_iff, Head.released, Option.any_eq_true, decide_eq_true_eq]
    constructor
    · rintro ⟨_, ⟨head, hhead, rfl⟩, terminal, hterminal, hover⟩
      exact ⟨head, terminal, hhead, head.terminalHeight_expire height ▸ hterminal, hover⟩
    · rintro ⟨head, terminal, hhead, hterminal, hover⟩
      exact ⟨_, ⟨head, hhead, rfl⟩, terminal, (head.terminalHeight_expire height).trans hterminal,
        hover⟩
  · rw [OpenBlock.mem_compacted_iff hmarked.indexed hcompact, show o.records.heads =
      ((reducer.openBlock.markExpired height).records.ledger.compact reducer.rules.parameters
        height).heads from congrArg Ledger.heads hafter, Ledger.compact,
      ExtTreeMap.getElem?_filter', show reducer.heads[nameId]? = none ↔
        (reducer.openBlock.markExpired height).records.heads[nameId]? = none by
          rw [hheads, Option.map_eq_none_iff], Records.ledger]
    rcases (reducer.openBlock.markExpired height).records.heads[nameId]? with - | head
    · simp
    · rcases hreleased : head.released reducer.rules.parameters height with - | -
      · simp [Option.filter_some, hreleased]
      · simp [Option.filter_some, hreleased]

end Verdicts

namespace Sample

/-- The head of `alice` is spent at height two; with a cooldown of three blocks, block five deletes
it. -/
theorem checked_arithmetic_exact_cooldown : ∃ replies reducer compacted o,
    start.run [.applyBlock block0 [], .applyBlock block1 [], .applyBlock block2 []] =
      some (replies, reducer) ∧
    reducer.heads.toList.map (fun entry ↦ entry.2.terminalHeight) = [some 2] ∧
    reducer.ExactArithmetic ∧
    (reducer.openBlock.markExpired 5).compactClaimable reducer.rules.parameters 5 =
      some (compacted, o) ∧
    ∀ (nameId : NameId) (head : Head), reducer.heads[nameId]? = some head →
      o.records.heads[nameId]? = none := by
  have hevaluated : (start.run [.applyBlock block0 [], .applyBlock block1 [],
      .applyBlock block2 []]).map (fun result ↦
        (result.2.heads.toList.map (fun entry ↦ entry.2.terminalHeight),
          result.2.rules.parameters.cooldownBlocks)) = some ([some 2], 3) := by
    decide +kernel
  obtain ⟨⟨replies, reducer⟩, hrun, hresult⟩ := Option.map_eq_some_iff.1 hevaluated
  obtain ⟨hterminal, hcooldown⟩ := Prod.mk.inj hresult
  have hexact : reducer.ExactArithmetic :=
    checked_arithmetic_exact ((Reached.new new_eq_start).run hrun)
  obtain ⟨compacted, o, hcompact, hdeleted⟩ := hexact.compaction 5
  refine ⟨replies, reducer, compacted, o, hrun, hterminal, hexact, hcompact,
    fun nameId head hhead ↦ ?_⟩
  have hmem : head.terminalHeight ∈ [some 2] := by
    rw [← hterminal]
    exact List.mem_map.2 ⟨_, OrderedMap.getElem?_eq_some_iff_mem_toList.1 hhead, rfl⟩
  refine (hdeleted nameId).2.2 (.inr ((hdeleted nameId).1.2 ⟨head, 2, hhead, ?_, ?_⟩))
  · rw [Head.terminalAt, List.mem_singleton.1 hmem, Option.some_or]
  · rw [show reducer.rules.parameters.cooldownBlocks = 3 from hcooldown]
    decide

end Sample

end CoppiceNames
