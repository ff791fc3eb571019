import CoppiceNames.Checker.Trace
import CoppiceNames.Library.Loops
import CoppiceNames.Library.Wire
import CoppiceNames.Reducer.Lifecycle
import CoppiceNames.Resolver.Exact

/-!
# The empty-block advance

`run_case` of `names-semantic-trace.rs` drives a full reducer and one exact resolver for each
tracked name through the steps of a case. An `advance_empty` step hands them empty blocks until the
next height lies above a given one. The loop finds the next height from the tip with a saturating
addition, where the reducer itself uses a checked one, so the two agree on every height but the
last.
-/

open Std hiding not_le not_lt

namespace CoppiceNames

/-- `u32::saturating_add`. -/
def U32.saturatingAdd (a b : U32) : U32 :=
  (U32.checkedAdd a b).getD 4294967295

/-- `hash`: the branch byte throughout, but for the last four bytes, which are the height. -/
def branchHash (branchByte : UInt8) (height : U32) : Bytes32 :=
  Vector.ofFn fun i ↦
    if i.val < 28 then branchByte else (beBytes 4 height.val).getD (i.val - 28) 0

section Advance

variable [Primitives]

/-! ### The case -/

/-- `CorpusBlock`, with its transactions as the reader parses them. -/
structure CorpusBlock where
  height : U32
  branchByte : UInt8
  prevHash : Option Bytes32
  transactions : List Transaction

/-- `block`. -/
def CorpusBlock.block (value : CorpusBlock) (previousHash : Bytes32) : Block where
  height := value.height
  hash := branchHash value.branchByte value.height
  prevHash := value.prevHash.getD previousHash
  transactions := value.transactions

/-- `ExplicitProofVerdicts`. -/
def explicitProofVerdicts : ProofVerifier :=
  ProofVerdicts fun proof ↦ proof == [1]

/-- A transaction as `operation_kind` sees it for an exact name: an operation on another name is
inert. -/
def Transaction.seenFor (transaction : Transaction) (name : Name) : Transaction :=
  { transaction with
    operation := transaction.operation.filter fun operation ↦
      match operation with
      | .commit _ => true
      | .reveal op => op.name = name
      | .refresh op => op.name = name }

/-- `exact_apply_result`. -/
def exactApplyResult (name : Name) (block : Block) (result : Except ApplyError BlockOutcome) :
    Option ApplyResult :=
  applyResult { block with transactions := block.transactions.map (·.seenFor name) } result

/-- What `run_case` carries from step to step. The resolvers are those of a map under the tracked
names. -/
structure CaseState where
  full : Reducer
  exact : List ExactResolver

/-- `run_case` before the first step. -/
def CaseState.new (parameters : Parameters) (parentHash : Bytes32) (names : List Name) :
    Except ApplyError CaseState := do
  let full ← Reducer.new parameters parentHash explicitProofVerdicts
  let exact ← names.mapM fun name ↦
    ExactResolver.new parameters parentHash name explicitProofVerdicts
  return ⟨full, exact⟩

/-- The snapshots show the same resolution of every tracked name; `run_case` fails otherwise. -/
def CaseState.agrees (state : CaseState) (parameters : Parameters) : Bool :=
  let height (tip : Option ReducerTip) :=
    (tip.map ReducerTip.height).getD parameters.activationHeight
  state.exact.all fun resolver ↦
    tracedResolution (state.full.resolveAuthenticated resolver.name (height state.full.tip)) =
      tracedResolution (resolver.resolve (height resolver.tip))

/-- `Step::Apply`. -/
def CaseState.apply (state : CaseState) (parentHash : Bytes32) (input : CorpusBlock)
    (evidence : List ReferencedCommit) : Option CaseState := do
  let previousHash := (state.full.tip.map ReducerTip.hash).getD parentHash
  let materialized := input.block previousHash
  let (result, full) ← state.full.applyBlockDetailed materialized evidence
  let _ ← applyResult materialized result
  let exact ← state.exact.mapM fun resolver ↦ do
    let (result, next) ← resolver.applyBlockDetailed materialized evidence
    let _ ← exactApplyResult resolver.name materialized result
    return next
  return ⟨full, exact⟩

/-- `Step::Rollback`. -/
def CaseState.rollback (state : CaseState) (height : U32) (branchByte : UInt8)
    (expectedHash : Option Bytes32) : CaseState where
  full := (state.full.rollbackTipDetailed (expectedHash.getD (branchHash branchByte height))).2
  exact := state.exact.map fun resolver ↦
    (resolver.rollbackTip (expectedHash.getD (branchHash branchByte height))).2

/-! ### The loop -/

/-- The reducer and the resolvers, with the results collected so far. -/
structure AdvanceState where
  full : Reducer
  fullResults : List ApplyResult
  exact : List (ExactResolver × List ApplyResult)

/-- `next_height` of the loop. -/
def nextEmptyHeight (parameters : Parameters) (full : Reducer) : U32 :=
  (full.tip.map fun tip ↦ U32.saturatingAdd tip.height 1).getD parameters.activationHeight

/-- The empty block of an iteration. -/
def nextEmptyBlock (parameters : Parameters) (parentHash : Bytes32) (branchByte : UInt8)
    (full : Reducer) : Block :=
  CorpusBlock.block ⟨nextEmptyHeight parameters full, branchByte, none, []⟩
    ((full.tip.map ReducerTip.hash).getD parentHash)

/-- Hand a block to a resolver and collect its result. -/
def handExact (block : Block) (entry : ExactResolver × List ApplyResult) :
    Option (ExactResolver × List ApplyResult) := do
  let (result, next) ← entry.1.applyBlockDetailed block []
  let exactResult ← exactApplyResult entry.1.name block result
  return (next, entry.2 ++ [exactResult])

/-- Hand a block to the reducer and to every resolver; nothing is a panic. -/
def AdvanceState.hand (state : AdvanceState) (block : Block) : Option AdvanceState := do
  let (result, full) ← state.full.applyBlockDetailed block []
  let fullResult ← applyResult block result
  let exact ← state.exact.mapM (handExact block)
  return ⟨full, state.fullResults ++ [fullResult], exact⟩

/-- One iteration of `Step::AdvanceEmpty`. -/
def advanceIteration (parameters : Parameters) (parentHash : Bytes32) (throughHeight : U32)
    (branchByte : UInt8) (state : AdvanceState) : Iteration AdvanceState :=
  if nextEmptyHeight parameters state.full > throughHeight then .breaks state
  else
    match state.hand (nextEmptyBlock parameters parentHash branchByte state.full) with
    | none => .panics
    | some next => .continues next

/-- The state in which the loop starts. -/
def CaseState.open (state : CaseState) : AdvanceState :=
  ⟨state.full, [], state.exact.map fun resolver ↦ (resolver, [])⟩

/-- The state that the loop leaves. -/
def AdvanceState.close (state : AdvanceState) : CaseState :=
  ⟨state.full, state.exact.map Prod.fst⟩

/-- `Step::AdvanceEmpty`, for at most so many iterations. -/
def CaseState.advanceEmpty (state : CaseState) (parameters : Parameters) (parentHash : Bytes32)
    (throughHeight : U32) (branchByte : UInt8) (fuel : ℕ) : Iteration AdvanceState :=
  Iteration.loop (advanceIteration parameters parentHash throughHeight branchByte) fuel state.open

/-- The states between the steps of a case. A step has to come to its end, and then to pass the
comparison. -/
inductive CaseReached (parameters : Parameters) (parentHash : Bytes32) (names : List Name) :
    CaseState → Prop
  | new {state : CaseState} (h : CaseState.new parameters parentHash names = .ok state) :
      CaseReached parameters parentHash names state
  | advanceEmpty {state : CaseState} {throughHeight : U32} {branchByte : UInt8} {fuel : ℕ}
      {final : AdvanceState} (hstate : CaseReached parameters parentHash names state)
      (h : state.advanceEmpty parameters parentHash throughHeight branchByte fuel = .breaks final)
      (hagrees : final.close.agrees parameters = true) :
      CaseReached parameters parentHash names final.close
  | apply {state next : CaseState} {input : CorpusBlock} {evidence : List ReferencedCommit}
      (hstate : CaseReached parameters parentHash names state)
      (h : state.apply parentHash input evidence = some next)
      (hagrees : next.agrees parameters = true) : CaseReached parameters parentHash names next
  | rollback {state : CaseState} {height : U32} {branchByte : UInt8}
      {expectedHash : Option Bytes32} (hstate : CaseReached parameters parentHash names state)
      (hagrees : (state.rollback height branchByte expectedHash).agrees parameters = true) :
      CaseReached parameters parentHash names (state.rollback height branchByte expectedHash)

/-- The block of a result was accepted. -/
def ApplyResult.isApplied : ApplyResult → Bool
  | applied _ _ _ => true
  | refused _ _ _ => false

/-! ### What the steps reach -/

variable {parameters : Parameters} {parentHash : Bytes32} {names : List Name}
  {verifier : ProofVerifier}

theorem Reducer.run_concat {start reducer next : Reducer} {calls : List Call} {c : Call}
    {replies : List Reply} {reply : Reply} (hrun : start.run calls = some (replies, reducer))
    (hcall : reducer.call c = some (reply, next)) :
    start.run (calls ++ [c]) = some (replies ++ [reply], next) := by
  induction calls generalizing start replies with
  | nil =>
    obtain ⟨rfl, rfl⟩ := Prod.mk.inj (Option.some.inj hrun)
    exact Reducer.run_cons_eq_some_iff.2 ⟨reply, next, [], hcall, rfl, rfl⟩
  | cons first calls ih =>
    obtain ⟨firstReply, middle, rest, hfirst, hrest, rfl⟩ := Reducer.run_cons_eq_some_iff.1 hrun
    exact Reducer.run_cons_eq_some_iff.2 ⟨firstReply, middle, _, hfirst, ih hrest, rfl⟩

namespace FromNew

theorem new {reducer : Reducer} (h : Reducer.new parameters parentHash verifier = .ok reducer) :
    FromNew parameters parentHash verifier reducer :=
  ⟨reducer, [], [], h, rfl⟩

/-- One more call. -/
theorem call {reducer next : Reducer} (h : FromNew parameters parentHash verifier reducer)
    {c : Call} {reply : Reply} (hcall : reducer.call c = some (reply, next)) :
    FromNew parameters parentHash verifier next := by
  obtain ⟨start, calls, replies, hnew, hrun⟩ := h.reached
  exact ⟨start, calls ++ [c], replies ++ [reply], hnew, Reducer.run_concat hrun hcall⟩

theorem apply {reducer next : Reducer} (h : FromNew parameters parentHash verifier reducer)
    {block : Block} {evidence : List ReferencedCommit} {result : Except ApplyError BlockOutcome}
    (happly : reducer.applyBlockDetailed block evidence = some (result, next)) :
    FromNew parameters parentHash verifier next :=
  h.call (c := .applyBlock block evidence) (by rw [Reducer.call, happly]; rfl)

/-- Without a tip the previous hash is that of the activation parent. -/
theorem previousHash_eq {reducer : Reducer} (h : FromNew parameters parentHash verifier reducer)
    (htip : reducer.tipHeight = none) : reducer.previousHash = parentHash := by
  obtain ⟨start, blocks, hnew, fresh, hreplay, hreducer, -⟩ := h.survives
  obtain ⟨valid, rfl⟩ := Reducer.new_eq_ok_iff.1 hnew
  rcases List.eq_nil_or_concat blocks with rfl | ⟨earlier, last, rfl⟩
  · obtain rfl := Option.some.inj hreplay
    rw [hreducer]
  · -- the last block of a replay leaves its height as the tip
    rw [List.concat_eq_append, Reducer.replay_append, Option.bind_eq_some_iff] at hreplay
    obtain ⟨previous, -, haccept⟩ := hreplay
    obtain ⟨outcome, happly⟩ := Reducer.accept_eq_some_iff.1 haccept
    obtain ⟨supplied, -, -, -, -, o, -, -, -, rfl, -⟩ :=
      Reducer.applyBlockDetailed_eq_ok_iff.1 happly
    rw [hreducer] at htip
    exact absurd htip (by simp [Reducer.closeBlock])

end FromNew

/-- All reducers of a state are reachable ones. -/
structure CaseState.Sound (parameters : Parameters) (parentHash : Bytes32) (state : CaseState) :
    Prop where
  full : FromNew parameters parentHash explicitProofVerdicts state.full
  exact : ∀ resolver ∈ state.exact,
    FromNew parameters parentHash explicitProofVerdicts resolver.reducer

/-- The same within the loop. -/
structure AdvanceState.Sound (parameters : Parameters) (parentHash : Bytes32)
    (state : AdvanceState) : Prop where
  full : FromNew parameters parentHash explicitProofVerdicts state.full
  exact : ∀ entry ∈ state.exact,
    FromNew parameters parentHash explicitProofVerdicts entry.1.reducer

/-! ### Handing over a block -/

/-- The result of a block without transactions. -/
theorem exists_applyResult {block : Block} (hempty : block.transactions = [])
    (result : Except ApplyError BlockOutcome) :
    ∃ printed, applyResult block result = some printed ∧ printed.isApplied = result.toBool := by
  rcases result with e | outcome
  · exact ⟨_, rfl, rfl⟩
  · rw [applyResult, hempty]
    exact ⟨_, rfl, rfl⟩

theorem exists_exactApplyResult {block : Block} (hempty : block.transactions = []) (name : Name)
    (result : Except ApplyError BlockOutcome) :
    ∃ printed, exactApplyResult name block result = some printed := by
  have hseen : ({ block with transactions := block.transactions.map (·.seenFor name) } :
      Block).transactions = [] := by
    rw [hempty]
    rfl
  obtain ⟨printed, h, -⟩ := exists_applyResult hseen result
  exact ⟨printed, h⟩

theorem ExactResolver.fromNew_apply {resolver next : ExactResolver} {block : Block}
    {evidence : List ReferencedCommit} {result : Except ApplyError BlockOutcome}
    (h : FromNew parameters parentHash verifier resolver.reducer)
    (happly : resolver.applyBlockDetailed block evidence = some (result, next)) :
    FromNew parameters parentHash verifier next.reducer := by
  obtain ⟨⟨inner, reducer⟩, hinner, heq⟩ := Option.map_eq_some_iff.1 happly
  obtain ⟨rfl, rfl⟩ := Prod.mk.inj heq
  exact h.apply hinner

/-- A reachable reducer does not panic. -/
theorem FromNew.exists_apply {reducer : Reducer}
    (h : FromNew parameters parentHash verifier reducer) (block : Block)
    (evidence : List ReferencedCommit) :
    ∃ result next, reducer.applyBlockDetailed block evidence = some (result, next) := by
  rcases Reducer.applyBlockDetailed_spec h.indexed block evidence with
    ⟨e, -, hrefused, -⟩ | ⟨outcome, o, s, haccepted, -⟩
  · exact ⟨_, _, hrefused⟩
  · exact ⟨_, _, haccepted⟩

theorem exists_handExact {entry : ExactResolver × List ApplyResult}
    (h : FromNew parameters parentHash verifier entry.1.reducer) {block : Block}
    (hempty : block.transactions = []) :
    ∃ next, handExact block entry = some next ∧
      FromNew parameters parentHash verifier next.1.reducer := by
  obtain ⟨result, reducer, hinner⟩ := h.exists_apply (block.filtered entry.1.nameId) []
  have hresolver : entry.1.applyBlockDetailed block [] =
      some (result, { entry.1 with reducer := reducer }) := by
    rw [ExactResolver.applyBlockDetailed, hinner]
    rfl
  obtain ⟨printed, hprinted⟩ := exists_exactApplyResult hempty entry.1.name result
  refine ⟨({ entry.1 with reducer := reducer }, entry.2 ++ [printed]), ?_, h.apply hinner⟩
  simp only [handExact, hresolver, hprinted, Option.bind_eq_bind, Option.bind_some, Option.pure_def]

/-- An empty block is handed over without a panic. -/
theorem AdvanceState.Sound.hand {state : AdvanceState} (h : state.Sound parameters parentHash)
    {block : Block} (hempty : block.transactions = []) :
    ∃ next, state.hand block = some next ∧ next.Sound parameters parentHash ∧
      ∃ result printed, state.full.applyBlockDetailed block [] = some (result, next.full) ∧
        next.fullResults = state.fullResults ++ [printed] ∧
        printed.isApplied = result.toBool := by
  obtain ⟨result, full, happly⟩ := h.full.exists_apply block []
  obtain ⟨printed, hprinted, happlied⟩ := exists_applyResult hempty result
  obtain ⟨exact, hexact, hreached⟩ := List.exists_mapM_eq_some fun entry hentry ↦
    exists_handExact (h.exact entry hentry) hempty
  refine ⟨⟨full, state.fullResults ++ [printed], exact⟩, ?_,
    ⟨h.full.apply happly, hreached⟩, result,
    printed, happly, rfl, happlied⟩
  simp only [AdvanceState.hand, happly, hprinted, hexact, Option.bind_eq_bind, Option.bind_some,
    Option.pure_def]

/-! ### The height of the next block -/

omit [Primitives] in
theorem U32.saturatingAdd_of_lt {a b : U32} (h : a.val + b.val < 4294967296) :
    (U32.saturatingAdd a b).val = a.val + b.val := by
  rw [U32.saturatingAdd, U32.checkedAdd_eq_some_iff.2
    (show (⟨a.val + b.val, h⟩ : U32).val = a.val + b.val from rfl)]
  rfl

theorem nextEmptyHeight_of_tip {full : Reducer} {tip : U32} (htip : full.tipHeight = some tip) :
    nextEmptyHeight parameters full = U32.saturatingAdd tip 1 := by
  rw [nextEmptyHeight, Reducer.tip, htip]
  rfl

/-- Below the last height, the loop and the reducer expect the same next block. -/
theorem FromNew.nextHeight_eq {full : Reducer} (h : FromNew parameters parentHash verifier full)
    (hlt : nextEmptyHeight parameters full < 4294967295) :
    some (nextEmptyHeight parameters full) = full.nextHeight := by
  have hinv := h.inv
  rcases htip : full.tipHeight with - | tip
  · rw [ScanReducer.Inv, show full.scan.tipHeight = none from htip] at hinv
    rw [nextEmptyHeight, Reducer.tip, htip, ← h.parameters_eq]
    exact hinv.1.symm
  · rw [ScanReducer.Inv, show full.scan.tipHeight = some tip from htip] at hinv
    rw [nextEmptyHeight_of_tip htip] at hlt ⊢
    rw [show full.nextHeight = U32.checkedAdd tip 1 from hinv.1]
    rcases hadd : U32.checkedAdd tip 1 with - | next
    · -- a sum that does not fit saturates
      rw [U32.saturatingAdd, hadd] at hlt
      exact absurd hlt (lt_irrefl _)
    · rw [U32.saturatingAdd, hadd]
      rfl

theorem FromNew.nextEmptyBlock_prevHash {full : Reducer}
    (h : FromNew parameters parentHash verifier full) (branchByte : UInt8) :
    (nextEmptyBlock parameters parentHash branchByte full).prevHash = full.previousHash := by
  rcases htip : full.tipHeight with - | tip
  · rw [h.previousHash_eq htip]
    simp [nextEmptyBlock, CorpusBlock.block, Reducer.tip, htip]
  · simp [nextEmptyBlock, CorpusBlock.block, Reducer.tip, htip]

/-- **An empty block below the last height is accepted.** -/
theorem FromNew.accepts_nextEmptyBlock {full next : Reducer}
    (h : FromNew parameters parentHash verifier full) {branchByte : UInt8}
    (hlt : nextEmptyHeight parameters full < 4294967295)
    {result : Except ApplyError BlockOutcome}
    (happly : full.applyBlockDetailed (nextEmptyBlock parameters parentHash branchByte full) [] =
      some (result, next)) :
    result.toBool = true ∧
      next.tipHeight = some (nextEmptyHeight parameters full) := by
  obtain ⟨accepted, haccept, -, -, -, htip, -⟩ := Reducer.apply_empty h.indexed h.inv
    (show (nextEmptyBlock parameters parentHash branchByte full).transactions = [] from rfl)
    (h.nextHeight_eq hlt)
    (h.nextEmptyBlock_prevHash branchByte)
  obtain ⟨outcome, hok⟩ := Reducer.accept_eq_some_iff.1 haccept
  rw [happly] at hok
  obtain ⟨rfl, rfl⟩ := Prod.mk.inj (Option.some.inj hok)
  exact ⟨rfl, htip⟩

/-! ### The loop -/

variable {throughHeight : U32} {branchByte : UInt8} {state next : AdvanceState}

theorem advanceIteration_of_gt (h : throughHeight < nextEmptyHeight parameters state.full) :
    advanceIteration parameters parentHash throughHeight branchByte state = .breaks state :=
  if_pos h

/-- An iteration that does not break hands over its block. -/
theorem AdvanceState.Sound.iteration (h : state.Sound parameters parentHash)
    (hle : nextEmptyHeight parameters state.full ≤ throughHeight) :
    ∃ next, advanceIteration parameters parentHash throughHeight branchByte state =
        .continues next ∧ next.Sound parameters parentHash ∧
      ∃ result printed,
        state.full.applyBlockDetailed
          (nextEmptyBlock parameters parentHash branchByte state.full) [] =
            some (result, next.full) ∧
        next.fullResults = state.fullResults ++ [printed] ∧
        printed.isApplied = result.toBool := by
  obtain ⟨next, hnext, hsound, hresult⟩ :=
    h.hand (show (nextEmptyBlock parameters parentHash branchByte state.full).transactions = [] from
      rfl)
  refine ⟨next, ?_, hsound, hresult⟩
  rw [advanceIteration, if_neg (not_lt.2 hle), hnext]

/-- What every iteration below the last height keeps: the results are those of accepted blocks. -/
structure AdvanceState.Accepting (parameters : Parameters) (parentHash : Bytes32)
    (state : AdvanceState) : Prop where
  sound : state.Sound parameters parentHash
  accepted : ∀ result ∈ state.fullResults, result.isApplied = true

/-- **One iteration below the last height.** -/
theorem AdvanceState.Accepting.iteration (h : state.Accepting parameters parentHash)
    (hthrough : throughHeight < 4294967295)
    (hle : nextEmptyHeight parameters state.full ≤ throughHeight) :
    ∃ next, advanceIteration parameters parentHash throughHeight branchByte state =
        .continues next ∧ next.Accepting parameters parentHash ∧
      nextEmptyHeight parameters state.full < nextEmptyHeight parameters next.full := by
  obtain ⟨next, hnext, hsound, result, printed, happly, hresults, happlied⟩ :=
    h.sound.iteration hle
  have hlt := hle.trans_lt hthrough
  obtain ⟨hok, htip⟩ := h.sound.full.accepts_nextEmptyBlock hlt happly
  refine ⟨next, hnext, ⟨hsound, fun r hr ↦ ?_⟩, ?_⟩
  · rw [hresults, List.mem_append, List.mem_singleton] at hr
    rcases hr with hr | rfl
    · exact h.accepted r hr
    · exact happlied.trans hok
  · -- the tip is the height just handed over, and the sum does not saturate there
    have hval : (nextEmptyHeight parameters state.full).val < 4294967295 := hlt
    rw [nextEmptyHeight_of_tip htip, Fin.lt_def, U32.saturatingAdd_of_lt (by
      rw [Fin.val_one]
      omega), Fin.val_one]
    omega

theorem AdvanceState.Accepting.loop (h : state.Accepting parameters parentHash)
    (hthrough : throughHeight < 4294967295) (fuel : ℕ) :
    (Iteration.loop (advanceIteration parameters parentHash throughHeight branchByte) fuel
      state).Holds (AdvanceState.Accepting parameters parentHash) := by
  refine Iteration.loop_holds (fun state h ↦ ?_) h fuel
  rcases lt_or_ge throughHeight (nextEmptyHeight parameters state.full) with hgt | hle
  · rw [advanceIteration_of_gt hgt]
    exact h
  · obtain ⟨next, hnext, haccepting, -⟩ := h.iteration hthrough hle
    rw [hnext]
    exact haccepting

theorem AdvanceState.Accepting.exists_breaks (h : state.Accepting parameters parentHash)
    (hthrough : throughHeight < 4294967295) :
    ∃ fuel final, Iteration.loop
      (advanceIteration parameters parentHash throughHeight branchByte) fuel state =
        .breaks final := by
  refine Iteration.exists_loop_breaks
    (fun state ↦ 4294967296 - (nextEmptyHeight parameters state.full).val) (fun state h ↦ ?_) h
  rcases lt_or_ge throughHeight (nextEmptyHeight parameters state.full) with hgt | hle
  · exact Or.inl ⟨state, advanceIteration_of_gt hgt⟩
  · obtain ⟨next, hnext, haccepting, hlt⟩ := h.iteration hthrough hle
    have hbound := (nextEmptyHeight parameters next.full).isLt
    rw [Fin.lt_def] at hlt
    exact Or.inr ⟨next, hnext, haccepting, by omega⟩

/-- **Through the last height the loop runs on**: no saturating sum lies above it. -/
theorem AdvanceState.Sound.runs_on (h : state.Sound parameters parentHash) (fuel : ℕ) :
    ∃ current, Iteration.loop
      (advanceIteration parameters parentHash 4294967295 branchByte) fuel state =
        .continues current := by
  have hbody : ∀ state : AdvanceState, state.Sound parameters parentHash →
      ∃ next, advanceIteration parameters parentHash 4294967295 branchByte state =
        .continues next ∧ next.Sound parameters parentHash := by
    intro state h
    have hle : nextEmptyHeight parameters state.full ≤ 4294967295 :=
      Fin.le_def.2 (Nat.le_of_lt_succ (nextEmptyHeight parameters state.full).isLt)
    obtain ⟨next, hnext, hsound, -⟩ := h.iteration hle
    exact ⟨next, hnext, hsound⟩
  obtain ⟨current, hcurrent, -⟩ := Iteration.loop_continues hbody h fuel
  exact ⟨current, hcurrent⟩

/-! ### Cases -/

theorem CaseState.Sound.open {state : CaseState} (h : state.Sound parameters parentHash) :
    state.open.Accepting parameters parentHash := by
  refine ⟨⟨h.full, fun entry hentry ↦ ?_⟩, fun result hresult ↦ absurd hresult (by
    simp [CaseState.open])⟩
  obtain ⟨resolver, hmem, rfl⟩ := List.mem_map.1 hentry
  exact h.exact resolver hmem

/-- A loop that breaks leaves reachable states. -/
theorem CaseState.Sound.advanceEmpty {state : CaseState} (h : state.Sound parameters parentHash)
    {fuel : ℕ} {final : AdvanceState}
    (hfinal : state.advanceEmpty parameters parentHash throughHeight branchByte fuel =
      .breaks final) : final.close.Sound parameters parentHash := by
  have hholds : (state.advanceEmpty parameters parentHash throughHeight branchByte fuel).Holds
      (AdvanceState.Sound parameters parentHash) := by
    refine Iteration.loop_holds (fun state h ↦ ?_) h.open.sound fuel
    rcases lt_or_ge throughHeight (nextEmptyHeight parameters state.full) with hgt | hle
    · rw [advanceIteration_of_gt hgt]
      exact h
    · obtain ⟨next, hnext, hsound, -⟩ := h.iteration hle
      rw [hnext]
      exact hsound
  rw [hfinal] at hholds
  refine ⟨hholds.full, fun resolver hresolver ↦ ?_⟩
  obtain ⟨entry, hentry, rfl⟩ := List.mem_map.1 hresolver
  exact hholds.exact entry hentry

theorem CaseState.Sound.apply {state next : CaseState} (h : state.Sound parameters parentHash)
    {input : CorpusBlock} {evidence : List ReferencedCommit}
    (hnext : state.apply parentHash input evidence = some next) :
    next.Sound parameters parentHash := by
  simp only [CaseState.apply, Option.bind_eq_bind, Option.bind_eq_some_iff, Option.pure_def,
    Option.some.injEq] at hnext
  obtain ⟨⟨result, full⟩, happly, printed, -, exact, hexact, rfl⟩ := hnext
  refine ⟨h.full.apply happly, fun resolver hresolver ↦ ?_⟩
  obtain ⟨previous, hprevious, hstep⟩ := List.exists_of_mem_mapM hexact hresolver
  simp only [Option.bind_eq_some_iff, Option.some.injEq] at hstep
  obtain ⟨⟨result, next⟩, hinner, printed, -, rfl⟩ := hstep
  exact ExactResolver.fromNew_apply (h.exact previous hprevious) hinner

theorem CaseState.Sound.rollback {state : CaseState} (h : state.Sound parameters parentHash)
    (height : U32) (branchByte : UInt8) (expectedHash : Option Bytes32) :
    (state.rollback height branchByte expectedHash).Sound parameters parentHash := by
  refine ⟨h.full.call (c := .rollbackTip _) rfl, fun resolver hresolver ↦ ?_⟩
  obtain ⟨previous, hprevious, rfl⟩ := List.mem_map.1 hresolver
  exact (h.exact previous hprevious).call (c := .rollbackTip _) rfl

theorem CaseState.Sound.new {state : CaseState}
    (h : CaseState.new parameters parentHash names = .ok state) :
    state.Sound parameters parentHash := by
  obtain ⟨full, hfull, h⟩ := Except.bind_eq_ok_iff.1 h
  obtain ⟨exact, hexact, h⟩ := Except.bind_eq_ok_iff.1 h
  obtain rfl := Except.ok.inj h
  refine ⟨FromNew.new hfull, fun resolver hresolver ↦ ?_⟩
  obtain ⟨name, -, hresolver⟩ := (Except.mem_iff_of_mapM_eq_ok hexact).1 hresolver
  exact FromNew.new (ExactResolver.new_eq_ok_iff.1 hresolver).2

/-- **Every state of a case is reachable.** -/
theorem CaseReached.sound {state : CaseState} (h : CaseReached parameters parentHash names state) :
    state.Sound parameters parentHash := by
  induction h with
  | new h => exact .new h
  | advanceEmpty _ h _ ih => exact ih.advanceEmpty h
  | apply _ h _ ih => exact ih.apply h
  | rollback _ _ ih => exact ih.rollback _ _ _

/-- The loop breaks, does not panic, and every block it has handed over was accepted. -/
structure CaseState.AdvanceSucceeds (state : CaseState) (parameters : Parameters)
    (parentHash : Bytes32) (throughHeight : U32) (branchByte : UInt8) : Prop where
  terminates : ∃ fuel final,
    state.advanceEmpty parameters parentHash throughHeight branchByte fuel = .breaks final
  accepted : ∀ fuel, (state.advanceEmpty parameters parentHash throughHeight branchByte fuel).Holds
    fun current ↦ ∀ result ∈ current.fullResults, result.isApplied = true

theorem CaseReached.advanceSucceeds {state : CaseState}
    (h : CaseReached parameters parentHash names state) (hthrough : throughHeight < 4294967295) :
    state.AdvanceSucceeds parameters parentHash throughHeight branchByte where
  terminates := h.sound.open.exists_breaks hthrough
  accepted fuel := (h.sound.open.loop hthrough fuel).mono fun _ h ↦ h.accepted

theorem CaseReached.not_terminates {state : CaseState}
    (h : CaseReached parameters parentHash names state) (fuel : ℕ) (final : AdvanceState) :
    state.advanceEmpty parameters parentHash 4294967295 branchByte fuel ≠ .breaks final := by
  obtain ⟨current, hcurrent⟩ := h.sound.open.sound.runs_on fuel
  intro hbreaks
  rw [CaseState.advanceEmpty, hcurrent] at hbreaks
  exact absurd hbreaks (by simp)

/-- **The empty-block advance.** From every state of a case, the loop breaks with every block
accepted exactly when it is not asked to go through the last height. -/
theorem advance_succeeds_iff {state : CaseState}
    (h : CaseReached parameters parentHash names state) (throughHeight : U32) (branchByte : UInt8) :
    state.AdvanceSucceeds parameters parentHash throughHeight branchByte ↔
      throughHeight.val < 2 ^ 32 - 1 := by
  constructor
  · intro hsucceeds
    by_contra hnot
    have hlast : throughHeight = 4294967295 := Fin.ext (by
      have hlt := throughHeight.isLt
      show throughHeight.val = 4294967295
      omega)
    obtain ⟨fuel, final, hbreaks⟩ := hsucceeds.terminates
    rw [hlast] at hbreaks
    exact h.not_terminates fuel final hbreaks
  · intro hlt
    exact h.advanceSucceeds (Fin.lt_def.2 hlt)

end Advance

/-! ### A case that ends at the last height -/

namespace Sample

/-- The small deployment, activated at the last height. -/
def lastParameters : Parameters :=
  { parameters with activationHeight := 4294967295 }

theorem lastParameters_valid : lastParameters.Valid := by
  obtain ⟨h₁, h₂, h₃, h₄, h₅, h₆⟩ := parameters_valid
  exact ⟨h₁, h₂, h₃, h₄, h₅, h₆⟩

/-- A case of valid parameters that tracks the name `alice`. -/
theorem exists_caseReached {p : Parameters} (hvalid : p.Valid) :
    ∃ state, CaseReached p parent [alice] state := by
  obtain ⟨resolver, hexists⟩ := exists_resolver
  have hid : alice.id = .ok resolver.nameId := by
    rw [← (ExactResolver.new_eq_ok_iff.1 hexists).1]
    exact resolver.id_eq
  obtain ⟨full, hfull⟩ : ∃ full, Reducer.new p parent explicitProofVerdicts = .ok full :=
    ⟨_, Reducer.new_eq_ok_iff.2 ⟨hvalid, rfl⟩⟩
  have hresolver : ExactResolver.new p parent alice explicitProofVerdicts =
      .ok ⟨alice, resolver.nameId, full, hid⟩ := ExactResolver.new_eq_ok_iff.2 ⟨rfl, hfull⟩
  have hexact : [alice].mapM (fun name ↦ ExactResolver.new p parent name explicitProofVerdicts) =
      .ok [⟨alice, resolver.nameId, full, hid⟩] :=
    Except.mapM_eq_ok_iff.2 (List.forall₂_cons.2 ⟨hresolver, List.Forall₂.nil⟩)
  exact ⟨⟨full, [⟨alice, resolver.nameId, full, hid⟩]⟩, .new (Except.bind_eq_ok_iff.2
    ⟨full, hfull, Except.bind_eq_ok_iff.2 ⟨_, hexact, rfl⟩⟩)⟩

/-- Asked to go through the last height, the loop of a case that is activated there never breaks. -/
theorem advance_through_last_height :
    lastParameters.Valid ∧ ∃ state, CaseReached lastParameters parent [alice] state ∧
      (∀ fuel, ∃ current,
        state.advanceEmpty lastParameters parent 4294967295 0 fuel = .continues current) ∧
      ¬ state.AdvanceSucceeds lastParameters parent 4294967295 0 := by
  obtain ⟨state, hstate⟩ := exists_caseReached lastParameters_valid
  refine ⟨lastParameters_valid, state, hstate, hstate.sound.open.sound.runs_on, fun hsucceeds ↦ ?_⟩
  obtain ⟨fuel, final, hbreaks⟩ := hsucceeds.terminates
  exact hstate.not_terminates fuel final hbreaks

theorem advance_succeeds_iff_alice : ∃ state, CaseReached parameters parent [alice] state ∧
    state.AdvanceSucceeds parameters parent 7 0 ∧
    ¬ state.AdvanceSucceeds parameters parent 4294967295 0 := by
  obtain ⟨state, hstate⟩ := exists_caseReached parameters_valid
  exact ⟨state, hstate, (advance_succeeds_iff hstate 7 0).2 (by decide),
    fun hsucceeds ↦ absurd ((advance_succeeds_iff hstate 4294967295 0).1 hsucceeds) (by decide)⟩

end Sample

end CoppiceNames
