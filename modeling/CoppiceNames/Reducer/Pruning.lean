import CoppiceNames.Reducer.Effects

/-!
# Pruning is invisible

A reducer that never deletes a COMMIT is run beside the real one. The two differ in old COMMITs only
(`Pruned`), and nothing reads these: a REVEAL needs a COMMIT below the lifetime, and so does a piece
of evidence. The three comparisons with the lifetime meet in `Pruned.lookup`.
-/

open Std hiding not_le not_lt

namespace CoppiceNames

section Pruning

variable [Primitives]

/-! ### The reducer without pruning -/

namespace Reducer

variable (reducer : Reducer)

/-- The block-start phases with a `prune_commits` that does nothing. -/
def startBlockUnpruned (height : U32) (supplied : OrderedMap CommitRef Commitment) :
    Option (List Compaction × OpenBlock) := do
  let o := reducer.openBlock.markExpired height
  let (compacted, o) ← o.compactClaimable reducer.rules.parameters height
  return (compacted, o.addEvidence supplied)

/-- `apply_block_detailed` with a `prune_commits` that does nothing. -/
def applyBlockUnpruned (block : Block) (referencedCommits : List ReferencedCommit) :
    Option (Except ApplyError BlockOutcome × Reducer) :=
  match admission reducer.rules.parameters reducer.nextHeight reducer.previousHash
      reducer.commits block referencedCommits with
  | .error e => some (.error e, reducer)
  | .ok supplied => do
    let fromTip := reducer.tip
    let (compacted, o) ← reducer.startBlockUnpruned block.height supplied
    let (decisions, terminated, o) ←
      o.applyTransactions reducer.rules block.height block.transactions
    let applied := reducer.closeBlock block o
    return (.ok
      { accepted := decisions.filterMap OperationDecision.accepted
        decisions := decisions
        compacted := compacted
        terminated := terminated
        stateDelta := applied.deltaFromUndo fromTip applied.tip o.journal }, applied)

/-- Offer blocks in order to a reducer, accepted or not. What is seen of each is its result and the
heads after it. -/
def feed (apply : Reducer → Block → List ReferencedCommit →
      Option (Except ApplyError BlockOutcome × Reducer)) (reducer : Reducer) :
    List (Block × List ReferencedCommit) →
      Option (List (Except ApplyError ScanOutcome × OrderedMap NameId Head) × Reducer)
  | [] => some ([], reducer)
  | block :: blocks =>
    match apply reducer block.1 block.2 with
    | none => none
    | some (result, next) => (next.feed apply blocks).map fun rest ↦
        ((result.map BlockOutcome.scan, next.heads) :: rest.1, rest.2)

end Reducer

/-- The records before the transactions of a block, without pruning. -/
def Ledger.startUnpruned (ledger : Ledger) (parameters : Parameters) (height : U32)
    (supplied : OrderedMap CommitRef Commitment) : Ledger :=
  ((ledger.markExpired height).compact parameters height).addEvidence supplied

/-! ### The records side by side -/

/-- The same heads, and of the COMMITs those whose age is below the lifetime. -/
structure Pruned (parameters : Parameters) (height : U32) (kept all : Ledger) : Prop where
  heads : kept.heads = all.heads
  commits : ∀ reference : CommitRef, kept.commits[reference]? =
    all.commits[reference]?.filter fun _ ↦
      height.val - reference.height.val < parameters.commitTtlBlocks.val
  before : ∀ reference ∈ all.commits, reference.height ≤ height

namespace Pruned

variable {parameters : Parameters} {rules : Rules} {tip height : U32} {kept all : Ledger}
  {transaction : Transaction}

theorem empty : Pruned parameters height Ledger.empty Ledger.empty where
  heads := rfl
  commits reference := by simp [Ledger.empty]
  before reference hmem := by simp [Ledger.empty] at hmem

/-- A COMMIT below the lifetime is there in both, also when looked up after the tip. -/
theorem lookup (h : Pruned parameters tip kept all) (hle : tip ≤ height) {reference : CommitRef}
    (hage : height.val - reference.height.val < parameters.commitTtlBlocks.val) :
    kept.commits[reference]? = all.commits[reference]? := by
  rw [Fin.le_def] at hle
  have hyoung : tip.val - reference.height.val < parameters.commitTtlBlocks.val := by omega
  rw [h.commits]
  rcases all.commits[reference]? with - | commitment
  · rfl
  · exact Option.filter_some_pos (decide_eq_true hyoung)

/-- Evidence is admitted or refused alike. -/
theorem supply (h : Pruned parameters tip kept all) {block : Block} (hle : tip ≤ block.height)
    (evidence : List ReferencedCommit) (supplied : OrderedMap CommitRef Commitment) :
    supply parameters kept.commits block supplied evidence =
      CoppiceNames.supply parameters all.commits block supplied evidence := by
  induction evidence generalizing supplied with
  | nil => rfl
  | cons piece rest ih =>
    rw [CoppiceNames.supply, CoppiceNames.supply]
    split
    · rfl
    · rename_i hrange
      -- a piece in range is below the lifetime, so both look at the same COMMIT
      rw [h.lookup hle (evidential_iff.2 hrange).age_lt, ih]

/-- A REVEAL is decided alike. -/
theorem revealed (h : Pruned rules.parameters height kept all) (op : Reveal) :
    kept.revealed rules height transaction op = all.revealed rules height transaction op := by
  rw [Ledger.revealed, Ledger.revealed, h.heads]
  dsimp only
  by_cases haccepts : rules.parameters.acceptsCommit op.commit.height height = true
  · rw [h.lookup le_rfl (Parameters.acceptsCommit_iff.1 haccepts).2.2.2]
  · rw [Bool.not_eq_true] at haccepts
    rw [haccepts]
    simp only [if_true]

/-- A REFRESH is decided alike. -/
theorem refreshed (h : Pruned rules.parameters height kept all) (op : Refresh) :
    kept.refreshed rules height transaction op = all.refreshed rules height transaction op := by
  rw [Ledger.refreshed, Ledger.refreshed, h.heads]

/-- Installing a head in both. -/
theorem insertHead (h : Pruned parameters height kept all) (nameId : NameId) (head : Head) :
    Pruned parameters height { kept with heads := kept.heads.insert nameId head }
      { all with heads := all.heads.insert nameId head } where
  heads := congrArg (fun heads : OrderedMap NameId Head ↦ heads.insert nameId head) h.heads
  commits := h.commits
  before := h.before

/-- A COMMIT of this height is new in both. -/
theorem insertCommit (h : Pruned parameters height kept all) (hvalid : parameters.Valid)
    {reference : CommitRef} (hheight : reference.height = height) (commitment : Commitment) :
    Pruned parameters height { kept with commits := kept.commits.insert reference commitment }
      { all with commits := all.commits.insert reference commitment } where
  heads := h.heads
  commits := by
    intro reference'
    rw [ExtTreeMap.getElem?_insert, ExtTreeMap.getElem?_insert]
    split
    · rename_i heq
      rw [LawfulEqCmp.compare_eq_iff_eq] at heq
      have hpos := hvalid.ttl_pos
      rw [← heq, hheight, Option.filter_some_pos]
      rw [decide_eq_true_eq]
      omega
    · exact h.commits reference'
  before := by
    intro reference' hmem
    rw [ExtTreeMap.mem_insert, LawfulEqCmp.compare_eq_iff_eq] at hmem
    rcases hmem with rfl | hmem
    · exact hheight.le
    · exact h.before reference' hmem

/-- **One operation.** -/
theorem applyOperation (h : Pruned rules.parameters height kept all) (transaction : Transaction) :
    (kept.applyOperation rules height transaction).1 =
        (all.applyOperation rules height transaction).1 ∧
      Pruned rules.parameters height (kept.applyOperation rules height transaction).2
        (all.applyOperation rules height transaction).2 := by
  rw [Ledger.applyOperation, Ledger.applyOperation]
  rcases transaction.operation with - | (commitment | op | op)
  · exact ⟨rfl, h⟩
  · exact ⟨rfl, h.insertCommit rules.valid rfl commitment⟩
  · dsimp only
    rw [h.revealed op]
    rcases all.revealed rules height transaction op with clause | ⟨nameId, head⟩
    · exact ⟨rfl, h⟩
    · exact ⟨rfl, h.insertHead nameId head⟩
  · dsimp only
    rw [h.refreshed op]
    rcases all.refreshed rules height transaction op with clause | ⟨nameId, head⟩
    · exact ⟨rfl, h⟩
    · exact ⟨rfl, h.insertHead nameId head⟩

/-- **One transaction.** -/
theorem applyTransaction (h : Pruned rules.parameters height kept all) (transaction : Transaction) :
    (kept.applyTransaction rules height transaction).1 =
        (all.applyTransaction rules height transaction).1 ∧
      (kept.applyTransaction rules height transaction).2.1 =
        (all.applyTransaction rules height transaction).2.1 ∧
      Pruned rules.parameters height (kept.applyTransaction rules height transaction).2.2
        (all.applyTransaction rules height transaction).2.2 := by
  obtain ⟨hdecision, hafter⟩ := h.applyOperation transaction
  -- the spend pass reads the heads only, before and after the operation
  have hspent : kept.spent transaction = all.spent transaction := by
    funext nameId head
    rw [Ledger.spent, Ledger.spent, h.heads]
  refine ⟨hdecision, ?_, ?_, hafter.commits, hafter.before⟩
  · rw [Ledger.applyTransaction, Ledger.applyTransaction, Ledger.terminations, Ledger.terminations,
      hspent, hafter.heads]
  · have hspend : kept.afterSpend height transaction = all.afterSpend height transaction := by
      funext nameId head
      rw [Ledger.afterSpend, Ledger.afterSpend, hspent]
    rw [Ledger.applyTransaction, Ledger.applyTransaction, Ledger.terminate, Ledger.terminate,
      hspend, hafter.heads]

/-- **The transactions of a block.** -/
theorem applyTransactions (h : Pruned rules.parameters height kept all)
    (transactions : List Transaction) :
    (kept.applyTransactions rules height transactions).1 =
        (all.applyTransactions rules height transactions).1 ∧
      (kept.applyTransactions rules height transactions).2.1 =
        (all.applyTransactions rules height transactions).2.1 ∧
      Pruned rules.parameters height (kept.applyTransactions rules height transactions).2.2
        (all.applyTransactions rules height transactions).2.2 := by
  induction transactions generalizing kept all with
  | nil => exact ⟨rfl, rfl, h⟩
  | cons transaction rest ih =>
    obtain ⟨hdecision, hterminated, hnext⟩ := h.applyTransaction transaction
    obtain ⟨hdecisions, hterminations, hlast⟩ := ih hnext
    refine ⟨?_, ?_, hlast⟩
    · rw [Ledger.applyTransactions, Ledger.applyTransactions]
      dsimp only
      rw [hdecision, hdecisions]
    · rw [Ledger.applyTransactions, Ledger.applyTransactions]
      dsimp only
      rw [hterminated, hterminations]

/-- **The start of a block**, where only one of the two prunes. -/
theorem startBlock (h : Pruned parameters tip kept all) {block : Block} (hle : tip ≤ block.height)
    {supplied : OrderedMap CommitRef Commitment}
    (hsupplied : ∀ reference ∈ supplied, Evidential parameters block reference) :
    Pruned parameters block.height (kept.startBlock parameters block.height supplied)
      (all.startUnpruned parameters block.height supplied) where
  heads := by
    show ((kept.heads.map _).filter _ : OrderedMap NameId Head) = (all.heads.map _).filter _
    rw [h.heads]
  commits := by
    intro reference
    rw [Ledger.startBlock, Ledger.startUnpruned, Ledger.getElem?_addEvidence,
      Ledger.getElem?_addEvidence, Ledger.getElem?_prune]
    simp only [Ledger.compact_commits, Ledger.markExpired_commits]
    rcases hevidence : supplied[reference]? with - | commitment
    · rw [Option.none_or, Option.none_or]
      by_cases hage : block.height.val - reference.height.val < parameters.commitTtlBlocks.val
      · rw [h.lookup hle hage]
      · simp [hage]
    · -- evidence is below the lifetime
      have hage := (hsupplied reference (OrderedMap.mem_of_getElem?_eq_some hevidence)).age_lt
      rw [Option.some_or, Option.some_or, Option.filter_some_pos]
      exact decide_eq_true hage
  before := by
    intro reference hmem
    rw [ExtTreeMap.mem_iff_isSome_getElem?, Ledger.startUnpruned, Ledger.getElem?_addEvidence,
      Option.isSome_or, Bool.or_eq_true] at hmem
    rcases hmem with hmem | hmem
    · exact (hsupplied reference (ExtTreeMap.mem_iff_isSome_getElem?.2 hmem)).before.le
    · exact (h.before reference (ExtTreeMap.mem_iff_isSome_getElem?.2 hmem)).trans hle

end Pruned

/-! ### The reducers side by side -/

namespace Reducer

variable {reducer : Reducer}

/-- An admitted block of the reducer without pruning. -/
theorem applyBlockUnpruned_of_admission (hindexed : reducer.toRecords.Indexed) {block : Block}
    {evidence : List ReferencedCommit} {supplied : OrderedMap CommitRef Commitment}
    (hadmission : admission reducer.rules.parameters reducer.nextHeight reducer.previousHash
      reducer.commits block evidence = .ok supplied)
    (hone : Tracks.OneTerminal (reducer.ledger.markExpired block.height).heads
      reducer.rules.parameters block.height) :
    ∃ outcome o, reducer.applyBlockUnpruned block evidence =
        some (.ok outcome, reducer.closeBlock block o) ∧ o.records.Indexed ∧
      outcome.compacted = (reducer.ledger.markExpired block.height).compactions
        reducer.rules.parameters block.height ∧
      outcome.accepted = outcome.decisions.filterMap OperationDecision.accepted ∧
      (outcome.decisions, outcome.terminated, o.records.ledger) =
        (reducer.ledger.startUnpruned reducer.rules.parameters block.height
          supplied).applyTransactions reducer.rules block.height block.transactions := by
  have hopen : Tracks reducer.ledger Set.univ Set.univ reducer.openBlock :=
    tracks_openBlock hindexed (fun _ _ ↦ trivial) fun _ _ ↦ trivial
  have hsupplied : ∀ reference ∈ supplied, reference ∈ (Set.univ : Set CommitRef) :=
    fun _ _ ↦ trivial
  have hwithin : ∀ transaction ∈ block.transactions,
      transaction.Within block.height Set.univ Set.univ :=
    fun _ _ ↦ ⟨fun _ _ ↦ trivial, fun _ _ _ _ ↦ trivial⟩
  obtain ⟨h₁, hledger₁⟩ := hopen.markExpired block.height
  obtain ⟨entries, o₂, hcompact, h₂, hledger₂, horder⟩ :=
    h₁.compactClaimable reducer.rules.parameters block.height
  obtain ⟨h₃, hledger₃⟩ := h₂.addEvidence hsupplied
  obtain ⟨o, hrun, htracks, hledger⟩ := h₃.applyTransactions reducer.rules hwithin
  have hstarted : (o₂.addEvidence supplied).records.ledger =
      reducer.ledger.startUnpruned reducer.rules.parameters block.height supplied := by
    rw [hledger₃, hledger₂, hledger₁]
    rfl
  rw [hstarted] at hrun hledger
  have hheads : (reducer.openBlock.markExpired block.height).records.heads =
      (reducer.ledger.markExpired block.height).heads := congrArg Ledger.heads hledger₁
  rw [hheads] at horder
  set result := (reducer.ledger.startUnpruned reducer.rules.parameters block.height
    supplied).applyTransactions reducer.rules block.height block.transactions
  have happly : reducer.applyBlockUnpruned block evidence = some (.ok
      { accepted := result.1.filterMap OperationDecision.accepted
        decisions := result.1
        compacted := entries.map fun e ↦ ⟨e.1, e.2.producer, block.height⟩
        terminated := result.2.1
        stateDelta := (reducer.closeBlock block o).deltaFromUndo reducer.tip
          (reducer.closeBlock block o).tip o.journal }, reducer.closeBlock block o) := by
    rw [applyBlockUnpruned, hadmission]
    simp only [startBlockUnpruned, hcompact, hrun, Option.bind_eq_bind, Option.bind_some,
      Option.pure_def]
  refine ⟨_, o, happly, htracks.indexed, ?_, rfl, ?_⟩
  · rw [horder hone, Ledger.compactions]
  · rw [hledger]

end Reducer

/-- The real reducer beside the one that never prunes. -/
structure Unpruned (real all : Reducer) : Prop where
  indexed : real.toRecords.Indexed
  indexed_all : all.toRecords.Indexed
  inv : real.scan.Inv
  rules : all.rules = real.rules
  nextHeight : all.nextHeight = real.nextHeight
  tipHeight : all.tipHeight = real.tipHeight
  previousHash : all.previousHash = real.previousHash
  ledger_of_tip : ∀ tip, real.tipHeight = some tip →
    Pruned real.rules.parameters tip real.ledger all.ledger
  ledger_of_no_tip : real.tipHeight = none → all.ledger = Ledger.empty

namespace Unpruned

variable {real all : Reducer}

/-- A new reducer has nothing to prune. -/
theorem new {parameters : Parameters} {parent : Bytes32} {verifier : ProofVerifier}
    (h : Reducer.new parameters parent verifier = .ok real) : Unpruned real real where
  indexed := Reducer.indexed_new h
  indexed_all := Reducer.indexed_new h
  inv := Reducer.inv_new h
  rules := rfl
  nextHeight := rfl
  tipHeight := rfl
  previousHash := rfl
  ledger_of_tip := by
    obtain ⟨valid, rfl⟩ := Reducer.new_eq_ok_iff.1 h
    intro tip htip
    exact absurd htip (by simp)
  ledger_of_no_tip := by
    obtain ⟨valid, rfl⟩ := Reducer.new_eq_ok_iff.1 h
    intro _
    rfl

theorem heads (h : Unpruned real all) : all.heads = real.heads := by
  rcases htip : real.tipHeight with - | tip
  · have hinv := h.inv
    rw [ScanReducer.Inv, show real.scan.tipHeight = none from htip] at hinv
    rw [show all.heads = ∅ from congrArg Ledger.heads (h.ledger_of_no_tip htip),
      show real.heads = ∅ from congrArg Ledger.heads hinv.2]
  · exact (h.ledger_of_tip tip htip).heads.symm

/-- Before the next block the COMMITs differ by age, at some height the block is not below. -/
theorem exists_pruned (h : Unpruned real all) {block : Block}
    (hheight : some block.height = real.nextHeight) : ∃ tip ≤ block.height,
      Pruned real.rules.parameters tip real.ledger all.ledger := by
  have hinv := h.inv
  rw [ScanReducer.Inv] at hinv
  rcases htip : real.tipHeight with - | tip
  · rw [show real.scan.tipHeight = none from htip] at hinv
    refine ⟨block.height, le_rfl, ?_⟩
    rw [h.ledger_of_no_tip htip, show real.ledger = Ledger.empty from hinv.2]
    exact Pruned.empty
  · rw [show real.scan.tipHeight = some tip from htip] at hinv
    rw [show real.nextHeight = _ from hinv.1] at hheight
    have hnext := U32.checkedAdd_eq_some_iff.1 hheight.symm
    refine ⟨tip, ?_, h.ledger_of_tip tip htip⟩
    rw [Fin.le_def]
    omega

/-- The checks before a block have the same result. -/
theorem admission (h : Unpruned real all) (block : Block) (evidence : List ReferencedCommit) :
    admission all.rules.parameters all.nextHeight all.previousHash all.commits block evidence =
      CoppiceNames.admission real.rules.parameters real.nextHeight real.previousHash real.commits
        block evidence := by
  rw [CoppiceNames.admission, CoppiceNames.admission, h.rules, h.nextHeight, h.previousHash]
  by_cases hheight : some block.height = real.nextHeight
  · obtain ⟨tip, hle, hpruned⟩ := h.exists_pruned hheight
    rw [show CoppiceNames.supply real.rules.parameters all.commits block ∅ evidence = _ from
      (hpruned.supply hle evidence ∅).symm]
    rfl
  · rw [if_pos hheight, if_pos hheight]

/-- **One block.** Both accept it with the same outcome, or both refuse it with the same error. -/
theorem step (h : Unpruned real all) (block : Block) (evidence : List ReferencedCommit) :
    ∃ result result' next next', real.applyBlockDetailed block evidence = some (result, next) ∧
      all.applyBlockUnpruned block evidence = some (result', next') ∧
      result'.map BlockOutcome.scan = result.map BlockOutcome.scan ∧ next.rules = real.rules ∧
      Unpruned next next' := by
  have hadmission := h.admission block evidence
  rcases Reducer.applyBlockDetailed_spec h.indexed block evidence with
    ⟨e, hrefused, happly, -⟩ | ⟨outcome, o, s, happly, htracks, hscan, haccepted, hdecisions,
      hterminated, hcompacted, -⟩
  · refine ⟨.error e, .error e, real, all, happly, ?_, rfl, rfl, h⟩
    rw [Reducer.applyBlockUnpruned, hadmission, hrefused]
  · rcases hadmitted : CoppiceNames.admission real.rules.parameters real.nextHeight
        real.previousHash real.commits block evidence with e | supplied
    · rw [Reducer.applyBlockDetailed, hadmitted] at happly
      exact absurd happly (by simp)
    obtain ⟨hheight, -, -, hsupply⟩ := admission_eq_ok hadmitted
    have hone := h.inv.oneTerminal hheight
    have hscan' := hscan
    rw [ScanReducer.applyBlock, show CoppiceNames.admission real.scan.rules.parameters
      real.scan.nextHeight real.scan.previousHash real.scan.ledger.commits block evidence = _ from
        hadmitted, Except.ok.injEq, Prod.mk.injEq] at hscan
    obtain ⟨rfl, hadvance⟩ := hscan
    -- the other reducer admits the block as well, and starts it with the same heads
    rw [hadmitted] at hadmission
    have hone' : Tracks.OneTerminal (all.ledger.markExpired block.height).heads
        all.rules.parameters block.height := by
      rw [h.rules, Ledger.markExpired, show all.ledger.heads = real.ledger.heads from h.heads]
      exact hone
    obtain ⟨outcome', o', happly', hindexed', hcompacted', haccepted', hresult'⟩ :=
      Reducer.applyBlockUnpruned_of_admission h.indexed_all hadmission hone'
    obtain ⟨tip, hle, hpruned⟩ := h.exists_pruned hheight
    have hstarted := hpruned.startBlock hle (evidential_of_supply hsupply)
    obtain ⟨hdecided, hterminations, hlast⟩ := hstarted.applyTransactions block.transactions
    rw [h.rules] at hresult' hcompacted'
    rw [Prod.ext_iff, Prod.ext_iff] at hresult'
    obtain ⟨hdecisions', hterminated', hledger'⟩ := hresult'
    have hledger : o.records.ledger = _ := (congrArg ScanReducer.ledger hadvance).symm
    refine ⟨.ok outcome, .ok outcome', _, _, happly, happly', ?_, rfl, ?_⟩
    · have hsame : outcome'.decisions = outcome.decisions :=
        hdecisions'.trans (hdecided.symm.trans hdecisions.symm)
      have hcompactions : outcome'.compacted = outcome.compacted := by
        rw [hcompacted', hcompacted hone, Ledger.markExpired,
          show all.ledger.heads = real.ledger.heads from h.heads]
        rfl
      show Except.ok outcome'.scan = Except.ok outcome.scan
      rw [BlockOutcome.scan, BlockOutcome.scan, haccepted', haccepted, hsame, hcompactions,
        show outcome'.terminated = outcome.terminated from
          hterminated'.trans (hterminations.symm.trans hterminated.symm), hdecisions]
    · exact
        { indexed := htracks.indexed
          indexed_all := hindexed'
          inv := h.inv.applyBlock hscan'
          rules := h.rules
          nextHeight := rfl
          tipHeight := rfl
          previousHash := rfl
          ledger_of_tip := by
            intro tip htip
            rw [← Option.some.inj htip]
            show Pruned real.rules.parameters block.height o.records.ledger o'.records.ledger
            rw [hledger, show o'.records.ledger = _ from hledger']
            exact hlast
          ledger_of_no_tip := fun htip ↦ absurd htip (by simp [Reducer.closeBlock]) }

/-- **A whole run**, in which blocks may be refused. -/
theorem feed (h : Unpruned real all) (blocks : List (Block × List ReferencedCommit)) :
    ∃ trace real' all', real.feed Reducer.applyBlockDetailed blocks = some (trace, real') ∧
      all.feed Reducer.applyBlockUnpruned blocks = some (trace, all') ∧
      real'.rules = real.rules ∧ Unpruned real' all' := by
  induction blocks generalizing real all with
  | nil => exact ⟨[], real, all, rfl, rfl, rfl, h⟩
  | cons block blocks ih =>
    obtain ⟨result, result', next, next', happly, happly', hresult, hrules, hnext⟩ :=
      h.step block.1 block.2
    obtain ⟨trace, real', all', hreal, hall, hrules', hlast⟩ := ih hnext
    refine ⟨(result.map BlockOutcome.scan, next.heads) :: trace, real', all', ?_, ?_,
      hrules'.trans hrules, hlast⟩
    · rw [Reducer.feed, happly]
      dsimp only
      rw [hreal, Option.map_some]
    · rw [Reducer.feed, happly']
      dsimp only
      rw [hall, Option.map_some, hresult, hnext.heads]

end Unpruned

/-- **Pruning COMMITs is invisible.** Offered the same blocks, the real reducer and the one that
never prunes give the same results and the same heads, block by block; and at the tip they differ in
the COMMITs whose lifetime is over. -/
theorem pruning_invisible {parameters : Parameters} {parent : Bytes32} {verifier : ProofVerifier}
    {start : Reducer} (hnew : Reducer.new parameters parent verifier = .ok start)
    (blocks : List (Block × List ReferencedCommit)) :
    ∃ trace real all, start.feed Reducer.applyBlockDetailed blocks = some (trace, real) ∧
      start.feed Reducer.applyBlockUnpruned blocks = some (trace, all) ∧
      all.heads = real.heads ∧ all.tip = real.tip ∧
      (∀ tip, real.tipHeight = some tip → ∀ reference : CommitRef,
        (reference ∈ all.commits → reference.height ≤ tip) ∧
        real.commits[reference]? = all.commits[reference]?.filter fun _ ↦
          tip.val - reference.height.val < parameters.commitTtlBlocks.val) ∧
      (real.tipHeight = none → real.commits = all.commits) := by
  obtain ⟨trace, real, all, hreal, hall, hrules, hlast⟩ := (Unpruned.new hnew).feed blocks
  have hparameters : real.rules.parameters = parameters := by
    rw [hrules]
    obtain ⟨valid, rfl⟩ := Reducer.new_eq_ok_iff.1 hnew
    rfl
  refine ⟨trace, real, all, hreal, hall, hlast.heads, ?_, fun tip htip reference ↦ ?_,
    fun htip ↦ ?_⟩
  · rw [Reducer.tip, Reducer.tip, hlast.tipHeight, hlast.previousHash]
  · have hpruned := hlast.ledger_of_tip tip htip
    rw [hparameters] at hpruned
    exact ⟨hpruned.before reference, hpruned.commits reference⟩
  · have hinv := hlast.inv
    rw [ScanReducer.Inv, show real.scan.tipHeight = none from htip] at hinv
    rw [show real.commits = ∅ from congrArg Ledger.commits hinv.2,
      show all.commits = ∅ from congrArg Ledger.commits (hlast.ledger_of_no_tip htip)]

end Pruning

namespace Sample

/-- In the small chain the COMMIT of height zero is over at height two: the real reducer has deleted
it, the other one has not. -/
theorem pruning_invisible_chain : ∃ trace real all,
    start.feed Reducer.applyBlockDetailed [(block0, []), (block1, []), (block2, [])] =
      some (trace, real) ∧
    start.feed Reducer.applyBlockUnpruned [(block0, []), (block1, []), (block2, [])] =
      some (trace, all) ∧
    all.heads = real.heads ∧ real.commits.size = 0 ∧ all.commits.size = 1 := by
  obtain ⟨trace, real, all, hreal, hall, hheads, -⟩ :=
    pruning_invisible new_eq_start [(block0, []), (block1, []), (block2, [])]
  have hkept : ((start.feed Reducer.applyBlockDetailed [(block0, []), (block1, []),
      (block2, [])]).map fun result ↦ result.2.commits.size) = some 0 := by decide +kernel
  have hall' : ((start.feed Reducer.applyBlockUnpruned [(block0, []), (block1, []),
      (block2, [])]).map fun result ↦ result.2.commits.size) = some 1 := by decide +kernel
  rw [hreal, Option.map_some, Option.some.injEq] at hkept
  rw [hall, Option.map_some, Option.some.injEq] at hall'
  exact ⟨trace, real, all, hreal, hall, hheads, hkept, hall'⟩

end Sample

end CoppiceNames
