import CoppiceNames.Checker.Advance
import CoppiceNames.Resolver.Lockstep

/-!
# The comparison in the trace tool

After every step, `run_case` of `names-semantic-trace.rs` compares the resolution that the full
reducer reports for each tracked name with the one of that name's exact resolver, and fails with a
divergence when they differ. The comparison never fails for a name that all evidence of the case
concerns, whatever the steps are: blocks that are refused, rollbacks that are refused, loops of
empty blocks (`run_case_never_diverges`).

The states of `CaseReached` have passed the comparison by definition. Here a case is driven on
without it (`CaseDriven`), so that passing is a result.
-/

open Std hiding not_le not_lt

namespace CoppiceNames

section Comparison

variable [Primitives]

/-! ### Steps without the comparison -/

/-- The comparison for one resolver. -/
def CaseState.AgreesOn (state : CaseState) (parameters : Parameters) (resolver : ExactResolver) :
    Prop :=
  let height (tip : Option ReducerTip) :=
    (tip.map ReducerTip.height).getD parameters.activationHeight
  tracedResolution (state.full.resolveAuthenticated resolver.name (height state.full.tip)) =
    tracedResolution (resolver.resolve (height resolver.tip))

/-- The evidence concerns each of the names. -/
def Block.EvidenceForAll (block : Block) (followed : List Name)
    (evidence : List ReferencedCommit) : Prop :=
  ∀ name ∈ followed, ∀ nameId, name.id = .ok nameId → block.EvidenceFor nameId evidence

/-- The states between the steps of a case, compared or not, when all evidence concerns the followed
names. -/
inductive CaseDriven (parameters : Parameters) (parentHash : Bytes32) (names followed : List Name) :
    CaseState → Prop
  | new {state : CaseState} (h : CaseState.new parameters parentHash names = .ok state) :
      CaseDriven parameters parentHash names followed state
  | advanceEmpty {state : CaseState} {throughHeight : U32} {branchByte : UInt8} {fuel : ℕ}
      {final : AdvanceState} (hstate : CaseDriven parameters parentHash names followed state)
      (h : state.advanceEmpty parameters parentHash throughHeight branchByte fuel = .breaks final) :
      CaseDriven parameters parentHash names followed final.close
  | apply {state next : CaseState} {input : CorpusBlock} {evidence : List ReferencedCommit}
      (hstate : CaseDriven parameters parentHash names followed state)
      (hevidence : ∀ previousHash, (input.block previousHash).EvidenceForAll followed evidence)
      (h : state.apply parentHash input evidence = some next) :
      CaseDriven parameters parentHash names followed next
  | rollback {state : CaseState} {height : U32} {branchByte : UInt8}
      {expectedHash : Option Bytes32}
      (hstate : CaseDriven parameters parentHash names followed state) :
      CaseDriven parameters parentHash names followed
        (state.rollback height branchByte expectedHash)

/-! ### The followed resolvers stay in step -/

variable {parameters : Parameters} {parentHash : Bytes32} {names followed : List Name}
  {start full full' : Reducer}

theorem Block.evidenceFor_of_empty {block : Block} (hempty : block.transactions = [])
    (nameId : NameId) (evidence : List ReferencedCommit) : block.EvidenceFor nameId evidence := by
  intro piece _ hreferenced
  rw [Block.revealReferences, hempty] at hreferenced
  exact absurd hreferenced List.not_mem_nil

/-- A resolver of a tracked name, which is in step with the full reducer if the name is a followed
one. -/
structure ExactResolver.Follows (names followed : List Name) (start full : Reducer)
    (resolver : ExactResolver) : Prop where
  tracked : resolver.name ∈ names
  inStep : resolver.name ∈ followed → InStep start resolver.nameId full resolver.reducer

/-- A block on both sides. -/
theorem ExactResolver.Follows.apply {resolver next : ExactResolver} {block : Block}
    {evidence : List ReferencedCommit} {result result' : Except ApplyError BlockOutcome}
    (h : resolver.Follows names followed start full)
    (hnew : Reducer.new parameters parentHash explicitProofVerdicts = .ok start)
    (hevidence : block.EvidenceForAll followed evidence)
    (hfull : full.applyBlockDetailed block evidence = some (result, full'))
    (hexact : resolver.applyBlockDetailed block evidence = some (result', next)) :
    next.Follows names followed start full' := by
  obtain ⟨⟨inner, reducer⟩, hinner, heq⟩ := Option.map_eq_some_iff.1 hexact
  obtain ⟨rfl, rfl⟩ := Prod.mk.inj heq
  refine ⟨h.tracked, fun hname ↦ ?_⟩
  obtain ⟨reply, reply', full₁, exact₁, hstep⟩ := (h.inStep hname).stepped hnew
    (c := .applyBlock block evidence) (hevidence resolver.name hname resolver.nameId resolver.id_eq)
  have hfull₁ : full₁ = full' := by
    have hcall := hstep.full
    rw [Reducer.call, hfull] at hcall
    exact (Prod.mk.inj (Option.some.inj hcall)).2.symm
  have hexact₁ : exact₁ = reducer := by
    have hcall := hstep.exact
    rw [Call.filtered, Reducer.call, hinner] at hcall
    exact (Prod.mk.inj (Option.some.inj hcall)).2.symm
  rw [← hfull₁, ← hexact₁]
  exact (h.inStep hname).step hnew hstep

/-- A rollback on both sides. -/
theorem ExactResolver.Follows.rollback {resolver : ExactResolver}
    (h : resolver.Follows names followed start full)
    (hnew : Reducer.new parameters parentHash explicitProofVerdicts = .ok start)
    (expectedHash : Bytes32) :
    (resolver.rollbackTip expectedHash).2.Follows names followed start
      (full.rollbackTipDetailed expectedHash).2 := by
  refine ⟨h.tracked, fun hname ↦ ?_⟩
  obtain ⟨reply, reply', full₁, exact₁, hstep⟩ := (h.inStep hname).stepped hnew
    (c := .rollbackTip expectedHash) trivial
  have hfull₁ : full₁ = (full.rollbackTipDetailed expectedHash).2 :=
    (Prod.mk.inj (Option.some.inj hstep.full)).2.symm
  have hexact₁ : exact₁ = (resolver.reducer.rollbackTipDetailed expectedHash).2 :=
    (Prod.mk.inj (Option.some.inj hstep.exact)).2.symm
  have hnext := (h.inStep hname).step hnew hstep
  rw [hfull₁, hexact₁] at hnext
  exact hnext

/-- **What every step keeps**: the followed resolvers are in step. -/
structure CaseState.Following (names followed : List Name) (start : Reducer)
    (state : CaseState) : Prop where
  exact : ∀ resolver ∈ state.exact, resolver.Follows names followed start state.full

/-- The same within the loop. -/
structure AdvanceState.Following (names followed : List Name) (start : Reducer)
    (state : AdvanceState) : Prop where
  exact : ∀ entry ∈ state.exact, entry.1.Follows names followed start state.full

namespace AdvanceState.Following

variable {state next : AdvanceState}

/-- **An empty block** concerns every name. -/
theorem hand (h : state.Following names followed start)
    (hnew : Reducer.new parameters parentHash explicitProofVerdicts = .ok start) {block : Block}
    (hempty : block.transactions = []) (hnext : state.hand block = some next) :
    next.Following names followed start := by
  simp only [AdvanceState.hand, Option.bind_eq_bind, Option.bind_eq_some_iff, Option.pure_def,
    Option.some.injEq] at hnext
  obtain ⟨⟨result, full⟩, happly, printed, -, exact, hexact, rfl⟩ := hnext
  refine ⟨fun entry hentry ↦ ?_⟩
  obtain ⟨previous, hprevious, hstep⟩ := List.exists_of_mem_mapM hexact hentry
  simp only [handExact, Option.bind_eq_bind, Option.bind_eq_some_iff, Option.pure_def,
    Option.some.injEq] at hstep
  obtain ⟨⟨result', resolver⟩, hinner, printed', -, rfl⟩ := hstep
  exact (h.exact previous hprevious).apply hnew
    (fun name _ nameId _ ↦ Block.evidenceFor_of_empty hempty nameId []) happly hinner

theorem iteration (h : state.Following names followed start ∧ state.Sound parameters parentHash)
    (hnew : Reducer.new parameters parentHash explicitProofVerdicts = .ok start)
    (throughHeight : U32) (branchByte : UInt8) :
    (advanceIteration parameters parentHash throughHeight branchByte state).Holds
      fun next ↦ next.Following names followed start ∧ next.Sound parameters parentHash := by
  have hempty : (nextEmptyBlock parameters parentHash branchByte state.full).transactions = [] :=
    rfl
  rcases lt_or_ge throughHeight (nextEmptyHeight parameters state.full) with hgt | hle
  · rw [advanceIteration_of_gt hgt]
    exact h
  · obtain ⟨next, hnext, hsound, -⟩ := h.2.hand hempty
    rw [advanceIteration, if_neg (not_lt.2 hle), hnext]
    exact ⟨h.1.hand hnew hempty hnext, hsound⟩

end AdvanceState.Following

namespace CaseState.Following

variable {state next : CaseState}

theorem new (h : CaseState.new parameters parentHash names = .ok state) (followed : List Name) :
    ∃ start, Reducer.new parameters parentHash explicitProofVerdicts = .ok start ∧
      state.Following names followed start := by
  obtain ⟨full, hfull, h⟩ := Except.bind_eq_ok_iff.1 h
  obtain ⟨exact, hexact, h⟩ := Except.bind_eq_ok_iff.1 h
  obtain rfl := Except.ok.inj h
  refine ⟨full, hfull, ⟨fun resolver hresolver ↦ ?_⟩⟩
  obtain ⟨name, hname, hresolver⟩ := (Except.mem_iff_of_mapM_eq_ok hexact).1 hresolver
  refine ⟨(ExactResolver.new_eq_ok_iff.1 hresolver).1 ▸ hname, fun _ ↦ ?_⟩
  have hsame : resolver.reducer = full :=
    Except.ok.inj ((ExactResolver.new_eq_ok_iff.1 hresolver).2.symm.trans hfull)
  rw [hsame]
  exact .new resolver.nameId full

theorem advanceEmpty (h : state.Following names followed start)
    (hsound : state.Sound parameters parentHash)
    (hnew : Reducer.new parameters parentHash explicitProofVerdicts = .ok start)
    {throughHeight : U32} {branchByte : UInt8} {fuel : ℕ} {final : AdvanceState}
    (hfinal : state.advanceEmpty parameters parentHash throughHeight branchByte fuel =
      .breaks final) : final.close.Following names followed start := by
  have hopen : state.open.Following names followed start := by
    refine ⟨fun entry hentry ↦ ?_⟩
    obtain ⟨resolver, hmem, rfl⟩ := List.mem_map.1 hentry
    exact h.exact resolver hmem
  have hholds := Iteration.loop_holds (fun current hcurrent ↦ AdvanceState.Following.iteration
    hcurrent hnew throughHeight branchByte) ⟨hopen, hsound.open.sound⟩ fuel
  rw [CaseState.advanceEmpty] at hfinal
  rw [hfinal] at hholds
  refine ⟨fun resolver hresolver ↦ ?_⟩
  obtain ⟨entry, hentry, rfl⟩ := List.mem_map.1 hresolver
  exact hholds.1.exact entry hentry

theorem apply (h : state.Following names followed start)
    (hnew : Reducer.new parameters parentHash explicitProofVerdicts = .ok start)
    {input : CorpusBlock} {evidence : List ReferencedCommit}
    (hevidence : ∀ previousHash, (input.block previousHash).EvidenceForAll followed evidence)
    (hnext : state.apply parentHash input evidence = some next) :
    next.Following names followed start := by
  simp only [CaseState.apply, Option.bind_eq_bind, Option.bind_eq_some_iff, Option.pure_def,
    Option.some.injEq] at hnext
  obtain ⟨⟨result, full⟩, happly, printed, -, exact, hexact, rfl⟩ := hnext
  refine ⟨fun resolver hresolver ↦ ?_⟩
  obtain ⟨previous, hprevious, hstep⟩ := List.exists_of_mem_mapM hexact hresolver
  simp only [Option.bind_eq_some_iff, Option.some.injEq] at hstep
  obtain ⟨⟨result', resolver'⟩, hinner, printed', -, rfl⟩ := hstep
  exact (h.exact previous hprevious).apply hnew (hevidence _) happly hinner

theorem rollback (h : state.Following names followed start)
    (hnew : Reducer.new parameters parentHash explicitProofVerdicts = .ok start)
    (height : U32) (branchByte : UInt8) (expectedHash : Option Bytes32) :
    (state.rollback height branchByte expectedHash).Following names followed start := by
  refine ⟨fun resolver hresolver ↦ ?_⟩
  obtain ⟨previous, hprevious, rfl⟩ := List.mem_map.1 hresolver
  exact (h.exact previous hprevious).rollback hnew _

/-- A followed resolver shows what the full reducer shows. -/
theorem agreesOn (h : state.Following names followed start)
    (hnew : Reducer.new parameters parentHash explicitProofVerdicts = .ok start)
    {resolver : ExactResolver} (hresolver : resolver ∈ state.exact)
    (hname : resolver.name ∈ followed) :
    resolver.tip = state.full.tip ∧ state.AgreesOn parameters resolver := by
  have hstep := (h.exact resolver hresolver).inStep hname
  have halike := hstep.alike hnew
  have htip : resolver.tip = state.full.tip := by
    rw [ExactResolver.tip, Reducer.tip, Reducer.tip, halike.tipHeight, halike.previousHash]
  refine ⟨htip, ?_⟩
  rw [CaseState.AgreesOn, htip, ExactResolver.resolve,
    hstep.resolveAuthenticated_eq hnew resolver.id_eq]

end CaseState.Following

/-! ### One decision for each transaction -/

theorem Ledger.length_applyTransactions (ledger : Ledger) (rules : Rules) (height : U32)
    (transactions : List Transaction) :
    (ledger.applyTransactions rules height transactions).1.length = transactions.length := by
  induction transactions generalizing ledger with
  | nil => rfl
  | cons transaction rest ih => rw [applyTransactions, List.length_cons, List.length_cons, ih]

theorem exists_tracedDecisions {transactions : List Transaction}
    {decisions : List OperationDecision} (h : decisions.length = transactions.length) :
    ∃ operations, tracedDecisions transactions decisions = some operations := by
  induction transactions generalizing decisions with
  | nil => exact ⟨[], rfl⟩
  | cons transaction rest ih =>
    rcases decisions with - | ⟨decision, decisions⟩
    · exact absurd h (by simp)
    · obtain ⟨operations, hoperations⟩ := ih (Nat.succ.inj h)
      rw [tracedDecisions, hoperations]
      exact ⟨_, rfl⟩

/-- A reachable reducer decides on every transaction of a block that it accepts. -/
theorem FromNew.length_decisions {verifier : ProofVerifier} {reducer next : Reducer}
    (h : FromNew parameters parentHash verifier reducer) {block : Block}
    {evidence : List ReferencedCommit} {outcome : BlockOutcome}
    (happly : reducer.applyBlockDetailed block evidence = some (.ok outcome, next)) :
    outcome.decisions.length = block.transactions.length := by
  rcases Reducer.applyBlockDetailed_spec h.indexed block evidence with
    ⟨e, -, hrefused, -⟩ | ⟨outcome', o, s, haccepted, -, hscan, -, hdecisions, -⟩
  · rw [happly] at hrefused
    exact absurd hrefused (by simp)
  · rw [happly, Option.some.injEq, Prod.mk.injEq, Except.ok.injEq] at haccepted
    obtain ⟨supplied, -, -, -, -, -, hdecided, -⟩ := ScanReducer.applyBlock_eq_ok hscan
    rw [haccepted.1, hdecisions, hdecided, Ledger.length_applyTransactions]

/-- `apply_result` does not panic. -/
theorem FromNew.exists_applyResult {verifier : ProofVerifier} {reducer next : Reducer}
    (h : FromNew parameters parentHash verifier reducer) {block : Block} (shown : Block)
    {evidence : List ReferencedCommit} {result : Except ApplyError BlockOutcome}
    (hshown : shown.transactions.length = block.transactions.length)
    (happly : reducer.applyBlockDetailed block evidence = some (result, next)) :
    ∃ printed, applyResult shown result = some printed := by
  rcases result with e | outcome
  · exact ⟨_, rfl⟩
  · obtain ⟨operations, hoperations⟩ := exists_tracedDecisions
      ((h.length_decisions happly).trans hshown.symm)
    rw [applyResult, hoperations]
    exact ⟨_, rfl⟩

/-- **No block panics**, whatever it contains. -/
theorem CaseState.Sound.exists_apply {state : CaseState} (h : state.Sound parameters parentHash)
    (input : CorpusBlock) (evidence : List ReferencedCommit) :
    ∃ next, state.apply parentHash input evidence = some next := by
  set materialized := input.block ((state.full.tip.map ReducerTip.hash).getD parentHash)
    with hmaterialized
  obtain ⟨result, full, happly⟩ := h.full.exists_apply materialized evidence
  obtain ⟨printed, hprinted⟩ := h.full.exists_applyResult materialized rfl happly
  obtain ⟨exact, hexact, -⟩ := List.exists_mapM_eq_some (P := fun _ ↦ True)
    (f := fun resolver : ExactResolver ↦
      (resolver.applyBlockDetailed materialized evidence).bind fun answer ↦
        (exactApplyResult resolver.name materialized answer.1).bind fun _ ↦ some answer.2)
    (l := state.exact) (by
    intro resolver hresolver
    have hreached := h.exact resolver hresolver
    obtain ⟨result, reducer, hinner⟩ := hreached.exists_apply
      (materialized.filtered resolver.nameId) evidence
    obtain ⟨printed, hprinted⟩ := hreached.exists_applyResult { materialized with
      transactions := materialized.transactions.map (·.seenFor resolver.name) } (by
        rw [List.length_map, Block.filtered, List.length_map]) hinner
    refine ⟨{ resolver with reducer := reducer }, ?_, trivial⟩
    rw [ExactResolver.applyBlockDetailed, hinner, Option.map_some, Option.bind_some]
    dsimp only
    rw [exactApplyResult, hprinted]
    rfl)
  refine ⟨⟨full, exact⟩, ?_⟩
  rw [CaseState.apply]
  simp only [← hmaterialized, happly, hprinted, Option.bind_eq_bind, Option.bind_some]
  dsimp only [Option.pure_def]
  rw [hexact]
  rfl

/-! ### Cases -/

theorem CaseState.agrees_iff {state : CaseState} : state.agrees parameters = true ↔
    ∀ resolver ∈ state.exact, state.AgreesOn parameters resolver := by
  rw [CaseState.agrees, List.all_eq_true]
  simp only [decide_eq_true_eq]
  rfl

theorem CaseDriven.following {state : CaseState}
    (h : CaseDriven parameters parentHash names followed state) :
    state.Sound parameters parentHash ∧
      ∃ start, Reducer.new parameters parentHash explicitProofVerdicts = .ok start ∧
        state.Following names followed start := by
  induction h with
  | new h => exact ⟨.new h, CaseState.Following.new h followed⟩
  | advanceEmpty _ h ih =>
    obtain ⟨hsound, start, hnew, hfollowing⟩ := ih
    exact ⟨hsound.advanceEmpty h, start, hnew, hfollowing.advanceEmpty hsound hnew h⟩
  | apply _ hevidence h ih =>
    obtain ⟨hsound, start, hnew, hfollowing⟩ := ih
    exact ⟨hsound.apply h, start, hnew, hfollowing.apply hnew hevidence h⟩
  | rollback _ ih =>
    obtain ⟨hsound, start, hnew, hfollowing⟩ := ih
    exact ⟨hsound.rollback _ _ _, start, hnew, hfollowing.rollback hnew _ _ _⟩

/-- The snapshot of every tracked name agrees, when all of them are followed. -/
theorem CaseDriven.agrees {state : CaseState}
    (h : CaseDriven parameters parentHash names followed state) (hall : names ⊆ followed) :
    state.agrees parameters = true := by
  obtain ⟨-, start, hnew, hfollowing⟩ := h.following
  refine CaseState.agrees_iff.2 fun resolver hresolver ↦ ?_
  exact (hfollowing.agreesOn hnew hresolver
    (hall (hfollowing.exact resolver hresolver).tracked)).2

/-- So the comparison stops no case. -/
theorem CaseDriven.reached {state : CaseState}
    (h : CaseDriven parameters parentHash names followed state) (hall : names ⊆ followed) :
    CaseReached parameters parentHash names state := by
  induction h with
  | new h => exact .new h
  | advanceEmpty hstate h ih => exact .advanceEmpty ih h ((hstate.advanceEmpty h).agrees hall)
  | apply hstate hevidence h ih => exact .apply ih h ((hstate.apply hevidence h).agrees hall)
  | rollback hstate ih => exact .rollback ih (hstate.rollback.agrees hall)

/-- **`run_case` never reports a divergence and no block makes it panic.** After any steps whose
evidence concerns the followed names, the resolver of each of them is at the tip of the full reducer
and resolves its name alike. When all tracked names are followed, every comparison has passed. -/
theorem run_case_never_diverges {state : CaseState}
    (h : CaseDriven parameters parentHash names followed state) :
    (∀ input evidence, ∃ next, state.apply parentHash input evidence = some next) ∧
    (∀ resolver ∈ state.exact, resolver.name ∈ followed →
      resolver.tip = state.full.tip ∧ state.AgreesOn parameters resolver) ∧
    (names ⊆ followed →
      state.agrees parameters = true ∧ CaseReached parameters parentHash names state) := by
  obtain ⟨hsound, start, hnew, hfollowing⟩ := h.following
  exact ⟨hsound.exists_apply, fun _ hresolver hname ↦ hfollowing.agreesOn hnew hresolver hname,
    fun hall ↦ ⟨h.agrees hall, h.reached hall⟩⟩

end Comparison

namespace Sample

/-- The block of the COMMIT, then the one of the REVEAL, as corpus blocks. -/
def corpusBlock0 : CorpusBlock := ⟨0, 1, some parent, [commitTransaction]⟩

def corpusBlock1 : CorpusBlock := ⟨1, 1, none, [revealTransaction]⟩

/-- A case that commits, reveals with the COMMIT as evidence, and rolls back. -/
theorem run_case_alice : ∃ state next last, CaseReached parameters parent [alice] state ∧
    state.apply parent corpusBlock0 [] = some next ∧
    next.apply parent corpusBlock1 [commitPiece] = some last ∧
    CaseReached parameters parent [alice] (last.rollback 1 1 none) := by
  obtain ⟨state, hstate⟩ : ∃ state, CaseState.new parameters parent [alice] = .ok state := by
    obtain ⟨state, hstate⟩ := exists_caseReached parameters_valid
    induction hstate with
    | new h => exact ⟨_, h⟩
    | advanceEmpty _ _ _ ih => exact ih
    | apply _ _ _ ih => exact ih
    | rollback _ _ ih => exact ih
  have hdriven : CaseDriven parameters parent [alice] [alice] state := .new hstate
  obtain ⟨next, hnext⟩ := (run_case_never_diverges hdriven).1 corpusBlock0 []
  have hdriven₁ : CaseDriven parameters parent [alice] [alice] next :=
    hdriven.apply (fun _ _ _ _ _ _ piece hpiece ↦ absurd hpiece List.not_mem_nil) hnext
  obtain ⟨last, hlast⟩ := (run_case_never_diverges hdriven₁).1 corpusBlock1 [commitPiece]
  have hdriven₂ : CaseDriven parameters parent [alice] [alice] last := by
    refine hdriven₁.apply (fun previousHash name hname nameId hid piece _ hreferenced ↦ ?_) hlast
    obtain rfl := List.mem_singleton.1 hname
    have hsame : (corpusBlock1.block previousHash).filtered nameId =
        corpusBlock1.block previousHash := by
      simp [Block.filtered, CorpusBlock.block, corpusBlock1, Transaction.filtered,
        revealTransaction, Operation.relevant, hid]
    rw [hsame]
    exact hreferenced
  exact ⟨state, next, last, ((run_case_never_diverges hdriven).2.2 (List.Subset.refl _)).2, hnext,
    hlast, ((run_case_never_diverges hdriven₂.rollback).2.2 (List.Subset.refl _)).2⟩

end Sample

end CoppiceNames
