import CoppiceNames.Reducer.Locality
import CoppiceNames.Resolver.Exact

/-!
# Exact replay agrees with complete replay

The full reducer applies every block as it is. The resolver for one name gets the same blocks with
every COMMIT erased, with every REVEAL and REFRESH outside the name's windows erased, and with the
COMMITs that the remaining REVEALs of the name reference as evidence. Both then have the same head
of the name at every tip.

The simulation relation (`Agrees`) is about four things: the chain position, the head of the name,
the COMMITs of the full reducer — exactly those of the chain that are not too old — and the COMMITs
of the resolver, which are some of the chain. At a REVEAL of the name the evidence closes the gap
between the last two (`Agrees.sameCommit`).
-/

open Std hiding not_le not_lt

namespace CoppiceNames

section Replay

variable [Primitives]

/-! ### The resolver's input -/

/-- The transaction without its COMMIT, and without any operation outside the name's windows. -/
def Transaction.erased (transaction : Transaction) (parameters : Parameters) (nameId : NameId)
    (height : U32) : Transaction :=
  { transaction with
    operation := transaction.operation.filter fun op ↦
      match op with
      | .commit _ => false
      | _ => parameters.acceptsOperation nameId height }

/-- The block with every COMMIT erased, and every operation outside the name's windows. -/
def Block.erased (block : Block) (parameters : Parameters) (nameId : NameId) : Block :=
  { block with transactions := block.transactions.map (·.erased parameters nameId block.height) }

/-- The blocks contain the COMMIT at the reference. -/
def CommittedAt (blocks : List Block) (reference : CommitRef) (commitment : Commitment) : Prop :=
  ∃ block ∈ blocks, block.height = reference.height ∧
    CommitIn block.transactions reference commitment

/-- **The evidence for a block**: a remaining REVEAL of the name references a COMMIT of the chain
that lies before the block, from activation on, and is not too old. -/
structure IsEvidence (parameters : Parameters) (nameId : NameId) (blocks : List Block)
    (block : Block) (piece : ReferencedCommit) : Prop where
  referenced : ∃ transaction ∈ (block.erased parameters nameId).transactions, ∃ op,
    transaction.operation = some (.reveal op) ∧ op.name.id = .ok nameId ∧
    op.commit = piece.reference
  activation_le : parameters.activationHeight ≤ piece.reference.height
  before : piece.reference.height < block.height
  age_lt : block.height.val - piece.reference.height.val < parameters.commitTtlBlocks.val
  committed : CommittedAt blocks piece.reference piece.commitment

/-- Apply one block to a resolver, which has to be accepted. -/
def ExactResolver.accept (resolver : ExactResolver) (block : Block × List ReferencedCommit) :
    Option ExactResolver :=
  match resolver.applyBlockDetailed block.1 block.2 with
  | some (.ok _, next) => some next
  | _ => none

/-- Apply blocks to a resolver in order, all of which have to be accepted. -/
def ExactResolver.replay (resolver : ExactResolver)
    (blocks : List (Block × List ReferencedCommit)) : Option ExactResolver :=
  blocks.foldlM accept resolver

/-- A block that the resolver's reducer accepts, filtered. -/
theorem ExactResolver.accept_of_apply {resolver : ExactResolver} {block : Block}
    {evidence : List ReferencedCommit} {outcome : BlockOutcome} {next : Reducer}
    (h : resolver.reducer.applyBlockDetailed (block.filtered resolver.nameId) evidence =
      some (.ok outcome, next)) :
    resolver.accept (block, evidence) = some { resolver with reducer := next } := by
  rw [accept, applyBlockDetailed, h]
  rfl

/-! ### The transactions the resolver's reducer sees -/

/-- What is left of a transaction after erasing and filtering. -/
def Transaction.remaining (transaction : Transaction) (parameters : Parameters) (nameId : NameId)
    (height : U32) : Transaction :=
  (transaction.erased parameters nameId height).filtered nameId

theorem Transaction.remaining_operation {transaction : Transaction} {parameters : Parameters}
    {nameId : NameId} {height : U32} {op : Operation} :
    (transaction.remaining parameters nameId height).operation = some op ↔
      transaction.operation = some op ∧ op.concerns nameId ∧
        parameters.acceptsOperation nameId height = true := by
  rw [remaining, filtered, erased, Option.filter_eq_some_iff, Option.filter_eq_some_iff]
  rcases op with commitment | op | op <;> simp [Operation.concerns, Operation.relevant] <;> grind

theorem Block.erased_filtered_transactions (block : Block) (parameters : Parameters)
    (nameId : NameId) : ((block.erased parameters nameId).filtered nameId).transactions =
      block.transactions.map (·.remaining parameters nameId block.height) := by
  rw [Block.filtered, Block.erased]
  dsimp only
  rw [List.map_map]
  rfl

/-- Erasing and filtering keeps everything that can touch the name. -/
theorem Ledger.sameFor_remaining (parameters : Parameters) (nameId : NameId) (height : U32)
    (transaction : Transaction) : SameFor parameters height nameId transaction
      (transaction.remaining parameters nameId height) where
  actions := rfl
  eq_of_touches htouches := by
    have hop : ∃ op, transaction.operation = some op ∧
        (transaction.remaining parameters nameId height).operation = some op := by
      rcases htouches with ⟨hwindow, op, hop, hconcerns⟩ | ⟨-, op, hop, -⟩
      · exact ⟨op, hop, Transaction.remaining_operation.2 ⟨hop, hconcerns, hwindow⟩⟩
      · exact ⟨op, (Transaction.remaining_operation.1 hop).1, hop⟩
    obtain ⟨op, hop, hremaining⟩ := hop
    rw [← hop] at hremaining
    exact congrArg (fun operation ↦ { transaction with operation := operation }) hremaining

/-- The index checks read positions and actions only. -/
theorem checkTransactions_map {g : Transaction → Transaction}
    (hg : ∀ transaction, (g transaction).txIndex = transaction.txIndex ∧
      (g transaction).actions = transaction.actions) (previous : Option U32)
    (transactions : List Transaction) :
    checkTransactions previous (transactions.map g) = checkTransactions previous transactions := by
  induction transactions generalizing previous with
  | nil => rfl
  | cons transaction rest ih =>
    rw [List.map_cons, checkTransactions, checkTransactions, (hg transaction).1,
      (hg transaction).2, ih]

/-- A block without COMMITs leaves the COMMITs as they are. -/
theorem Ledger.applyTransactions_commits_of_none (ledger : Ledger) (rules : Rules) (height : U32)
    {transactions : List Transaction}
    (h : ∀ transaction ∈ transactions, ∀ commitment,
      transaction.operation ≠ some (.commit commitment)) (reference : CommitRef) :
    (ledger.applyTransactions rules height transactions).2.2.commits[reference]? =
      ledger.commits[reference]? := by
  induction transactions generalizing ledger with
  | nil => rfl
  | cons transaction rest ih =>
    rw [Ledger.applyTransactions]
    dsimp only
    rw [ih _ fun t ht ↦ h t (List.mem_cons_of_mem transaction ht),
      getElem?_applyTransaction_commits]
    split
    · rename_i commitment hop
      exact absurd hop (h transaction List.mem_cons_self commitment)
    · rfl

/-- Evidence that agrees with a table, and with the pending COMMITs, is supplied completely. -/
theorem supply_of_table {parameters : Parameters} {block : Block}
    (table : OrderedMap CommitRef Commitment) {commits supplied : OrderedMap CommitRef Commitment}
    {evidence : List ReferencedCommit}
    (hevidence : ∀ piece ∈ evidence, Evidential parameters block piece.reference ∧
      table[piece.reference]? = some piece.commitment ∧
      ∀ prior, commits[piece.reference]? = some prior →
        table[piece.reference]? = some prior)
    (hsupplied : ∀ (reference : CommitRef) (commitment : Commitment),
      supplied[reference]? = some commitment → table[reference]? = some commitment) :
    ∃ supplied', supply parameters commits block supplied evidence = .ok supplied' ∧
      (∀ (reference : CommitRef) (commitment : Commitment),
        supplied[reference]? = some commitment → supplied'[reference]? = some commitment) ∧
      ∀ piece ∈ evidence, supplied'[piece.reference]? = some piece.commitment := by
  induction evidence generalizing supplied with
  | nil => exact ⟨supplied, rfl, fun _ _ h ↦ h, fun _ h ↦ absurd h List.not_mem_nil⟩
  | cons piece rest ih =>
    obtain ⟨hevidential, htable, hpending⟩ := hevidence piece List.mem_cons_self
    have hconsistent : ¬ ((supplied[piece.reference]?).any (· ≠ piece.commitment) = true ∨
        (commits[piece.reference]?).any (· ≠ piece.commitment) = true) := by
      simp only [Option.any_eq_true, decide_eq_true_eq, not_or, not_exists, not_and, not_not]
      refine ⟨fun prior hprior ↦ ?_, fun prior hprior ↦ ?_⟩
      · have hsame := hsupplied piece.reference prior hprior
        rw [htable, Option.some.injEq] at hsame
        exact hsame.symm
      · have hsame := hpending prior hprior
        rw [htable, Option.some.injEq] at hsame
        exact hsame.symm
    obtain ⟨supplied', hsupply, hkept, hrest⟩ := ih
      (fun piece' hmem ↦ hevidence piece' (List.mem_cons_of_mem piece hmem))
      (fun reference commitment h ↦ by
        rcases OrderedMap.getElem?_insert_eq_some_iff.1 h with ⟨rfl, rfl⟩ | ⟨-, h⟩
        · exact htable
        · exact hsupplied reference commitment h)
    refine ⟨supplied', ?_, fun reference commitment h ↦ ?_, fun piece' hmem ↦ ?_⟩
    · rw [supply]
      rw [if_neg (evidential_iff.1 hevidential), if_neg hconsistent]
      exact hsupply
    · refine hkept reference commitment (OrderedMap.getElem?_insert_eq_some_iff.2 ?_)
      by_cases heq : piece.reference = reference
      · subst heq
        have hsame := hsupplied piece.reference commitment h
        rw [htable, Option.some.injEq] at hsame
        exact Or.inl ⟨rfl, hsame⟩
      · exact Or.inr ⟨heq, h⟩
    · rcases List.mem_cons.1 hmem with rfl | hmem
      · exact hkept _ _ (OrderedMap.getElem?_insert_eq_some_iff.2 (Or.inl ⟨rfl, rfl⟩))
      · exact hrest piece' hmem

/-! ### The simulation -/

theorem committedAt_append {blocks : List Block} {block : Block} {reference : CommitRef}
    {commitment : Commitment} : CommittedAt (blocks ++ [block]) reference commitment ↔
      CommittedAt blocks reference commitment ∨ block.height = reference.height ∧
        CommitIn block.transactions reference commitment := by
  simp only [CommittedAt, List.mem_append, List.mem_singleton, or_and_right, exists_or,
    exists_eq_left]

/-- **The full reducer and the resolver after the same blocks.** -/
structure Agrees (nameId : NameId) (past : List Block) (full exact : Reducer) : Prop where
  rules : exact.rules = full.rules
  nextHeight : exact.nextHeight = full.nextHeight
  tipHeight : exact.tipHeight = full.tipHeight
  previousHash : exact.previousHash = full.previousHash
  full_indexed : full.toRecords.Indexed
  exact_indexed : exact.toRecords.Indexed
  inv : full.scan.Inv
  /-- The heads of the name are the same. -/
  head : full.heads[nameId]? = exact.heads[nameId]?
  /-- The blocks so far lie at or below the tip. -/
  past_le : ∀ block ∈ past, ∃ tip, full.tipHeight = some tip ∧ block.height ≤ tip
  /-- The full reducer has the COMMITs of the chain that are not too old. -/
  full_commit : ∀ (reference : CommitRef) (commitment : Commitment),
    full.commits[reference]? = some commitment ↔ CommittedAt past reference commitment ∧
      ∃ tip, full.tipHeight = some tip ∧
        tip.val - reference.height.val < full.rules.parameters.commitTtlBlocks.val
  /-- The resolver has only COMMITs of the chain. -/
  exact_commit : ∀ (reference : CommitRef) (commitment : Commitment),
    exact.commits[reference]? = some commitment → CommittedAt past reference commitment

namespace Agrees

variable {nameId : NameId} {past rest : List Block} {block : Block} {full exact : Reducer}

/-- The height of the next block is above all blocks so far. -/
theorem lt_next (h : Agrees nameId past full exact) (hheight : some block.height = full.nextHeight)
    {tip : U32} (htip : full.tipHeight = some tip) : block.height.val = tip.val + 1 := by
  have hinv := h.inv
  rw [ScanReducer.Inv, show full.scan.tipHeight = some tip from htip] at hinv
  have hnext : full.nextHeight = U32.checkedAdd tip 1 := hinv.1
  rw [hnext] at hheight
  exact U32.checkedAdd_eq_some_iff.1 hheight.symm

/-- The COMMITs of the full reducer at the start of the next block. -/
theorem full_started (h : Agrees nameId past full exact)
    (hheight : some block.height = full.nextHeight) (reference : CommitRef)
    (commitment : Commitment) :
    (full.ledger.startBlock full.rules.parameters block.height ∅).commits[reference]? =
        some commitment ↔ CommittedAt past reference commitment ∧
      block.height.val - reference.height.val < full.rules.parameters.commitTtlBlocks.val := by
  have hledger : full.ledger.commits[reference]? = some commitment ↔ _ :=
    h.full_commit reference commitment
  rw [Ledger.startBlock_commits, ExtTreeMap.getElem?_empty, Option.none_or,
    Option.filter_eq_some_iff, hledger, decide_eq_true_eq]
  constructor
  · rintro ⟨⟨hcommitted, -⟩, hage⟩
    exact ⟨hcommitted, hage⟩
  · rintro ⟨hcommitted, hage⟩
    refine ⟨⟨hcommitted, ?_⟩, hage⟩
    obtain ⟨committed, hmem, -⟩ := hcommitted
    obtain ⟨tip, htip, -⟩ := h.past_le committed hmem
    have hnext := h.lt_next hheight htip
    exact ⟨tip, htip, by omega⟩

/-- A COMMIT below the next block is among the blocks so far. -/
theorem committedAt_past (hrest : ∀ later ∈ rest, block.height ≤ later.height)
    {reference : CommitRef} {commitment : Commitment} (hlt : reference.height < block.height)
    (h : CommittedAt (past ++ rest) reference commitment) :
    CommittedAt past reference commitment := by
  obtain ⟨committed, hmem, hheight, hcommit⟩ := h
  rcases List.mem_append.1 hmem with hpast | hlater
  · exact ⟨committed, hpast, hheight, hcommit⟩
  · have hle := hrest committed hlater
    rw [hheight] at hle
    exact absurd hle (not_le.2 hlt)

/-- The evidence of the next block is admitted, and all of it is supplied. -/
theorem supply_evidence (h : Agrees nameId past full exact)
    (hheight : some block.height = full.nextHeight)
    (hrest : ∀ later ∈ rest, block.height ≤ later.height) {evidence : List ReferencedCommit}
    (hevidence : ∀ piece, piece ∈ evidence ↔
      IsEvidence full.rules.parameters nameId (past ++ rest) block piece) :
    ∃ supplied, supply exact.rules.parameters exact.commits
        ((block.erased full.rules.parameters nameId).filtered nameId) ∅ evidence = .ok supplied ∧
      ∀ piece ∈ evidence, supplied[piece.reference]? = some piece.commitment := by
  have htable : ∀ piece ∈ evidence, Evidential exact.rules.parameters
      ((block.erased full.rules.parameters nameId).filtered nameId) piece.reference ∧
      (full.ledger.startBlock full.rules.parameters block.height ∅).commits[piece.reference]? =
        some piece.commitment ∧
      ∀ prior, exact.commits[piece.reference]? = some prior →
        (full.ledger.startBlock full.rules.parameters block.height ∅).commits[piece.reference]? =
          some prior := by
    intro piece hmem
    have hpiece := (hevidence piece).1 hmem
    have hcommitted := committedAt_past hrest hpiece.before hpiece.committed
    refine ⟨⟨?_, ?_, hpiece.before, ?_⟩,
      (h.full_started hheight _ _).2 ⟨hcommitted, hpiece.age_lt⟩, fun prior hprior ↦ ?_⟩
    · -- the REVEAL that remains after erasing also passes the filter
      obtain ⟨transaction, htransaction, op, hop, hname, hreference⟩ := hpiece.referenced
      have hfiltered : (transaction.filtered nameId).operation = some (.reveal op) :=
        Option.filter_eq_some_iff.2 ⟨hop, decide_eq_true hname⟩
      rw [Block.revealReferences, List.mem_filterMap]
      refine ⟨transaction.filtered nameId, List.mem_map.2 ⟨transaction, htransaction, rfl⟩, ?_⟩
      rw [hfiltered]
      exact congrArg some hreference
    · rw [h.rules]
      exact hpiece.activation_le
    · rw [h.rules]
      exact hpiece.age_lt
    · exact (h.full_started hheight _ _).2 ⟨h.exact_commit _ _ hprior, hpiece.age_lt⟩
  obtain ⟨supplied, hok, -, hall⟩ := supply_of_table _ htable
    fun reference commitment (hempty : (∅ : OrderedMap CommitRef Commitment)[reference]? = _) ↦
      absurd hempty (by simp)
  exact ⟨supplied, hok, hall⟩

/-- **At a REVEAL of the name both ledgers have the COMMIT it references, or neither has.** -/
theorem sameCommit (h : Agrees nameId past full exact)
    (hheight : some block.height = full.nextHeight)
    (hrest : ∀ later ∈ rest, block.height ≤ later.height) {evidence : List ReferencedCommit}
    (hevidence : ∀ piece, piece ∈ evidence ↔
      IsEvidence full.rules.parameters nameId (past ++ rest) block piece)
    {supplied : OrderedMap CommitRef Commitment}
    (hsupply : supply exact.rules.parameters exact.commits
      ((block.erased full.rules.parameters nameId).filtered nameId) ∅ evidence = .ok supplied)
    (hall : ∀ piece ∈ evidence, supplied[piece.reference]? = some piece.commitment)
    {transaction : Transaction} (hmem : transaction ∈ block.transactions) :
    Ledger.SameCommit (full.ledger.startBlock full.rules.parameters block.height ∅)
      (exact.ledger.startBlock full.rules.parameters block.height supplied) full.rules.parameters
      block.height nameId transaction := by
  intro op hop hname hwindow haccepts
  obtain ⟨hactivation, hle, hmature, hage⟩ := Parameters.acceptsCommit_iff.1 haccepts
  have hbefore : op.commit.height < block.height := by
    have hpos := full.rules.valid.maturity_pos
    rw [Fin.lt_def]
    omega
  -- the chain has the COMMIT exactly when it is part of the evidence
  have hpiece : ∀ commitment, CommittedAt past op.commit commitment ↔
      (⟨op.commit, commitment⟩ : ReferencedCommit) ∈ evidence := by
    intro commitment
    rw [hevidence]
    constructor
    · intro hcommitted
      refine ⟨⟨transaction.erased full.rules.parameters nameId block.height,
        List.mem_map.2 ⟨transaction, hmem, rfl⟩, op, ?_, hname, rfl⟩, hactivation,
          hbefore, hage, ?_⟩
      · rw [Transaction.erased, hop]
        simp [hwindow]
      · obtain ⟨committed, hpast, hcommit⟩ := hcommitted
        exact ⟨committed, List.mem_append_left rest hpast, hcommit⟩
    · intro hpiece
      exact committedAt_past hrest hbefore hpiece.committed
  apply Option.ext
  intro commitment
  rw [h.full_started hheight, Ledger.startBlock_commits, Option.or_eq_some_iff]
  constructor
  · rintro ⟨hcommitted, -⟩
    exact Or.inl (hall _ ((hpiece commitment).1 hcommitted))
  · rintro (hsupplied | ⟨-, hpending⟩)
    · rcases supply_eq_ok hsupply hsupplied with hempty | ⟨hin, -⟩
      · exact absurd hempty (by simp)
      · exact ⟨(hpiece commitment).2 hin, hage⟩
    · rw [Option.filter_eq_some_iff] at hpending
      exact ⟨h.exact_commit _ _ hpending.1, hage⟩

/-- The COMMITs of the full reducer after the next block. -/
theorem full_commit_apply (h : Agrees nameId past full exact)
    (hheight : some block.height = full.nextHeight)
    (hcheck : checkTransactions none block.transactions = .ok ()) (reference : CommitRef)
    (commitment : Commitment) :
    ((full.ledger.startBlock full.rules.parameters block.height ∅).applyTransactions full.rules
        block.height block.transactions).2.2.commits[reference]? = some commitment ↔
      CommittedAt (past ++ [block]) reference commitment ∧
        block.height.val - reference.height.val <
          full.rules.parameters.commitTtlBlocks.val := by
  have hempty : supply full.scan.rules.parameters full.scan.ledger.commits block ∅ [] = .ok ∅ := rfl
  have hinv : (full.ledger.startBlock full.rules.parameters block.height ∅).Inv
      full.rules.parameters block.height 0 := h.inv.startBlock hheight hempty
  rw [Ledger.Inv.getElem?_applyTransactions_commits hcheck hinv, committedAt_append,
    h.full_started hheight]
  have hpos := full.rules.valid.ttl_pos
  constructor
  · rintro (⟨hcommitted, hage⟩ | ⟨hown, hin⟩)
    · exact ⟨Or.inl hcommitted, hage⟩
    · exact ⟨Or.inr ⟨hown.symm, hin⟩, by rw [hown]; omega⟩
  · rintro ⟨hcommitted | ⟨hown, hin⟩, hage⟩
    · exact Or.inl ⟨hcommitted, hage⟩
    · exact Or.inr ⟨hown.symm, hin⟩

/-- The COMMITs of the resolver after the next block come from the chain. -/
theorem exact_commit_apply (h : Agrees nameId past full exact)
    (hrest : ∀ later ∈ rest, block.height ≤ later.height) {evidence : List ReferencedCommit}
    (hevidence : ∀ piece, piece ∈ evidence ↔
      IsEvidence full.rules.parameters nameId (past ++ rest) block piece)
    {supplied : OrderedMap CommitRef Commitment}
    (hsupply : supply exact.rules.parameters exact.commits
      ((block.erased full.rules.parameters nameId).filtered nameId) ∅ evidence = .ok supplied)
    {reference : CommitRef} {commitment : Commitment}
    (hcommit : ((exact.ledger.startBlock full.rules.parameters block.height
      supplied).applyTransactions full.rules block.height (block.transactions.map
        (·.remaining full.rules.parameters nameId block.height))).2.2.commits[reference]? =
      some commitment) : CommittedAt (past ++ [block]) reference commitment := by
  rw [Ledger.applyTransactions_commits_of_none, Ledger.startBlock_commits,
    Option.or_eq_some_iff] at hcommit
  · rw [committedAt_append]
    refine Or.inl ?_
    rcases hcommit with hsupplied | ⟨-, hpending⟩
    · rcases supply_eq_ok hsupply hsupplied with hempty | ⟨hin, -⟩
      · exact absurd hempty (by simp)
      · have hpiece := (hevidence _).1 hin
        exact committedAt_past hrest hpiece.before hpiece.committed
    · rw [Option.filter_eq_some_iff] at hpending
      exact h.exact_commit _ _ hpending.1
  · intro transaction hmem own hop
    obtain ⟨original, -, rfl⟩ := List.mem_map.1 hmem
    exact (Transaction.remaining_operation.1 hop).2.1

/-- **One block.** -/
theorem apply (h : Agrees nameId past full exact) {outcome : BlockOutcome} {full' : Reducer}
    (happly : full.applyBlockDetailed block [] = some (.ok outcome, full'))
    (hrest : ∀ later ∈ rest, block.height ≤ later.height) {evidence : List ReferencedCommit}
    (hevidence : ∀ piece, piece ∈ evidence ↔
      IsEvidence full.rules.parameters nameId (past ++ rest) block piece) :
    ∃ outcome' exact', exact.applyBlockDetailed
        ((block.erased full.rules.parameters nameId).filtered nameId) evidence =
          some (.ok outcome', exact') ∧ Agrees nameId (past ++ [block]) full' exact' := by
  obtain ⟨s, hscan, -⟩ := Reducer.scan_of_apply h.full_indexed happly
  obtain ⟨empty, hheight, hhash, hcheck, hempty, hfull, -⟩ := ScanReducer.applyBlock_eq_ok hscan
  rw [supply, Except.ok.injEq] at hempty
  subst hempty
  obtain ⟨supplied, hsupply, hall⟩ := h.supply_evidence hheight hrest hevidence
  have hadmission : admission exact.rules.parameters exact.nextHeight exact.previousHash
      exact.commits ((block.erased full.rules.parameters nameId).filtered nameId) evidence =
        .ok supplied := by
    have hindices := checkTransactions_map (g := fun transaction ↦
      transaction.remaining full.rules.parameters nameId block.height) (fun _ ↦ ⟨rfl, rfl⟩) none
      block.transactions
    refine admission_of_checks ?_ ?_ ?_ hsupply
    · rw [h.nextHeight]
      exact hheight
    · rw [h.previousHash]
      exact hhash
    · rw [Block.erased_filtered_transactions, hindices]
      exact hcheck
  obtain ⟨outcome', o, s', hok, htracks, hscan', -⟩ := Reducer.applyBlockDetailed_of_admission
    (C := Set.univ) (H := Set.univ) h.exact_indexed hadmission (fun _ _ ↦ trivial)
    (fun _ _ ↦ trivial) (fun _ _ ↦ trivial) fun _ _ ↦ ⟨fun _ _ ↦ trivial, fun _ _ _ _ ↦ trivial⟩
  obtain ⟨supplied', -, -, -, hsupply', hexact, -⟩ := ScanReducer.applyBlock_eq_ok hscan'
  rw [show exact.scan.rules = exact.rules from rfl, show exact.scan.ledger = exact.ledger from rfl,
    show exact.ledger.commits = exact.commits from rfl, hsupply, Except.ok.injEq] at hsupply'
  subst hsupply'
  -- the records of both after the block
  have hfullLedger : full'.ledger = ((full.ledger.startBlock full.rules.parameters block.height
      ∅).applyTransactions full.rules block.height block.transactions).2.2 :=
    congrArg ScanReducer.ledger hfull
  have hexactLedger : (exact.closeBlock ((block.erased full.rules.parameters nameId).filtered
      nameId) o).ledger = ((exact.ledger.startBlock full.rules.parameters block.height
        supplied).applyTransactions full.rules block.height (block.transactions.map
          (·.remaining full.rules.parameters nameId block.height))).2.2 := by
    rw [show exact.scan.rules = full.rules from h.rules,
      Block.erased_filtered_transactions] at hexact
    exact congrArg ScanReducer.ledger hexact
  have hrules : full'.rules = full.rules := congrArg ScanReducer.rules hfull
  have htip : full'.tipHeight = some block.height := congrArg ScanReducer.tipHeight hfull
  refine ⟨outcome', _, hok,
    { rules := ?_, nextHeight := ?_, tipHeight := ?_, previousHash := ?_, full_indexed := ?_,
      exact_indexed := htracks.indexed, inv := h.inv.applyBlock hscan, head := ?_, past_le := ?_,
      full_commit := ?_, exact_commit := ?_ }⟩
  · rw [hrules]
    exact h.rules
  · exact (congrArg ScanReducer.nextHeight hfull).symm
  · exact htip.symm
  · exact (congrArg ScanReducer.previousHash hfull).symm
  · rcases Reducer.applyBlockDetailed_spec h.full_indexed block [] with
      ⟨e, -, hfailed, -⟩ | ⟨_, o', _, hok', htracks', -⟩
    · rw [hfailed, Option.some.injEq, Prod.mk.injEq] at happly
      exact absurd happly.1 (by simp)
    · rw [hok', Option.some.injEq, Prod.mk.injEq] at happly
      rw [← happly.2]
      exact htracks'.indexed
  · have hheads := Ledger.applyTransactions_agree
      (Ledger.startBlock_agree h.head full.rules.parameters ∅ supplied)
      (fun transaction _ ↦ Ledger.sameFor_remaining full.rules.parameters nameId block.height
        transaction)
      fun transaction hmem ↦ h.sameCommit hheight hrest hevidence hsupply hall hmem
    rw [← hfullLedger, ← hexactLedger] at hheads
    exact hheads
  · intro earlier hmem
    refine ⟨block.height, htip, ?_⟩
    rcases List.mem_append.1 hmem with hpast | hlast
    · obtain ⟨tip, htip', hle⟩ := h.past_le earlier hpast
      have hnext := h.lt_next hheight htip'
      grind
    · rw [List.mem_singleton.1 hlast]
  · intro reference commitment
    rw [show full'.commits = full'.ledger.commits from rfl, hfullLedger,
      h.full_commit_apply hheight hcheck, hrules, htip]
    simp
  · intro reference commitment hcommit
    refine h.exact_commit_apply hrest hevidence hsupply ?_
    rw [← hexactLedger]
    exact hcommit

/-- New reducers agree. -/
theorem new {parameters : Parameters} {parent : Bytes32} {verifier : ProofVerifier}
    {start : Reducer} (hnew : Reducer.new parameters parent verifier = .ok start) :
    Agrees nameId [] start start := by
  have hindexed := Reducer.indexed_new hnew
  have hinv := Reducer.inv_new hnew
  have hcommits : start.commits = ∅ := by
    obtain ⟨valid, rfl⟩ := Reducer.new_eq_ok_iff.1 hnew
    rfl
  refine ⟨rfl, rfl, rfl, rfl, hindexed, hindexed, hinv, rfl, fun _ hmem ↦ ?_,
    fun reference commitment ↦ ?_, fun reference commitment hcommit ↦ ?_⟩
  · exact absurd hmem List.not_mem_nil
  · rw [hcommits]
    simp [CommittedAt]
  · rw [hcommits] at hcommit
    exact absurd hcommit (by simp)

/-- Agreeing reducers resolve the name alike. -/
theorem resolveAuthenticated_eq (h : Agrees nameId past full exact) {name : Name}
    (hname : name.id = .ok nameId) (height : U32) :
    exact.resolveAuthenticated name height = full.resolveAuthenticated name height := by
  have hresolve : exact.resolve name height = full.resolve name height := by
    rw [Reducer.resolve, Reducer.resolve, hname]
    dsimp only
    rw [h.head, h.rules]
  rw [Reducer.resolveAuthenticated, Reducer.resolveAuthenticated, h.tipHeight, h.rules, hresolve]

end Agrees

namespace Reducer

variable {reducer final : Reducer}

/-- The blocks of a replay lie at or above the next height. -/
theorem le_height_of_replay {blocks : List (Block × List ReferencedCommit)} {height : U32}
    (hnext : reducer.nextHeight = some height) (h : reducer.replay blocks = some final) :
    ∀ block ∈ blocks, height ≤ block.1.height := by
  induction blocks generalizing reducer height with
  | nil => exact fun _ hmem ↦ absurd hmem List.not_mem_nil
  | cons first blocks ih =>
    obtain ⟨next, haccept, hrest⟩ := replay_cons_eq_some_iff.1 h
    obtain ⟨outcome, happly⟩ := accept_eq_some_iff.1 haccept
    obtain ⟨supplied, -, -, -, -, o, hadmission, -, -, rfl, -⟩ :=
      applyBlockDetailed_eq_ok_iff.1 happly
    have hfirst := (admission_eq_ok hadmission).1
    rw [hnext, Option.some.injEq] at hfirst
    intro block hmem
    rcases List.mem_cons.1 hmem with rfl | hmem
    · exact hfirst.ge
    · -- a further block needs a height above the first one
      rcases hadd : U32.checkedAdd first.1.height 1 with - | above
      · rcases blocks with - | ⟨second, blocks⟩
        · exact absurd hmem List.not_mem_nil
        · obtain ⟨next', haccept', -⟩ := replay_cons_eq_some_iff.1 hrest
          obtain ⟨outcome', happly'⟩ := accept_eq_some_iff.1 haccept'
          obtain ⟨supplied', -, -, -, -, -, hadmission', -⟩ :=
            applyBlockDetailed_eq_ok_iff.1 happly'
          have hsecond := (admission_eq_ok hadmission').1
          rw [show (closeBlock reducer first.1 o).nextHeight = none from hadd] at hsecond
          exact absurd hsecond (by simp)
      · have hle := ih (show (closeBlock reducer first.1 o).nextHeight = some above from hadd) hrest
          block hmem
        have hval := U32.checkedAdd_eq_some_iff.1 hadd
        grind

end Reducer

/-- **Exact-name replay agrees with complete replay.** Whenever a new reducer accepts a sequence of
blocks, a new resolver for a name accepts the same blocks without their COMMITs and without the
operations outside the name's windows, given exactly the evidence that the remaining REVEALs of the
name call for; and after every one of them both resolve the name alike, at every height. -/
theorem exact_replay_agrees {parameters : Parameters} {parent : Bytes32} {verifier : ProofVerifier}
    {name : Name} {start final : Reducer} {resolver : ExactResolver}
    (hnew : Reducer.new parameters parent verifier = .ok start)
    (hresolver : ExactResolver.new parameters parent name verifier = .ok resolver)
    {blocks : List Block}
    (hfull : start.replay (blocks.map fun block ↦ (block, [])) = some final)
    {evidence : Block → List ReferencedCommit}
    (hevidence : ∀ block ∈ blocks, ∀ piece, piece ∈ evidence block ↔
      IsEvidence parameters resolver.nameId blocks block piece)
    {past : List Block} (hpast : past <+: blocks) :
    ∃ full exact, start.replay (past.map fun block ↦ (block, [])) = some full ∧
      resolver.replay (past.map fun block ↦
        (block.erased parameters resolver.nameId, evidence block)) = some exact ∧
      ∀ height, exact.resolve height = full.resolveAuthenticated name height := by
  obtain ⟨hname, hreducer⟩ := ExactResolver.new_eq_ok_iff.1 hresolver
  have hparameters : start.rules.parameters = parameters := by
    obtain ⟨valid, rfl⟩ := Reducer.new_eq_ok_iff.1 hnew
    rfl
  -- the induction carries the simulation relation
  suffices hsim : ∃ full exact, start.replay (past.map fun block ↦ (block, [])) = some full ∧
      resolver.replay (past.map fun block ↦
        (block.erased parameters resolver.nameId, evidence block)) = some exact ∧
      exact.name = resolver.name ∧ exact.nameId = resolver.nameId ∧
      Agrees resolver.nameId past full exact.reducer by
    obtain ⟨full, exact, hreplay, hexact, hsame, -, hagrees⟩ := hsim
    refine ⟨full, exact, hreplay, hexact, fun height ↦ ?_⟩
    rw [ExactResolver.resolve, hsame, hname]
    rw [← hname]
    exact hagrees.resolveAuthenticated_eq resolver.id_eq height
  induction past using List.reverseRecOn with
  | nil =>
    rw [hnew, Except.ok.injEq] at hreducer
    refine ⟨start, resolver, rfl, rfl, rfl, rfl, ?_⟩
    rw [← hreducer]
    exact Agrees.new hnew
  | append_singleton past block ih =>
    obtain ⟨later, rfl⟩ := hpast
    obtain ⟨full, exact, hreplay, hexact, hsame, hid, hagrees⟩ :=
      ih ⟨block :: later, by rw [List.append_assoc]; rfl⟩
    -- the full reducer accepts the next block and those after it
    have hsplit : full.replay (((block :: later).map fun block ↦ (block, []))) = some final := by
      rw [List.append_assoc, List.map_append, Reducer.replay_append_list, hreplay] at hfull
      exact hfull
    obtain ⟨next, haccept, hlater⟩ := Reducer.replay_cons_eq_some_iff.1 hsplit
    obtain ⟨outcome, happly⟩ := Reducer.accept_eq_some_iff.1 haccept
    have hrules : full.rules.parameters = parameters := by
      rw [Reducer.rules_replay hreplay, hparameters]
    obtain ⟨supplied, -, -, -, -, -, hadmission, -⟩ :=
      Reducer.applyBlockDetailed_eq_ok_iff.1 happly
    have hbelow : ∀ b ∈ block :: later, block.height ≤ b.height := by
      intro b hb
      exact Reducer.le_height_of_replay (admission_eq_ok hadmission).1.symm hsplit _
        (List.mem_map.2 ⟨b, hb, rfl⟩)
    have hpieces : ∀ piece, piece ∈ evidence block ↔ IsEvidence full.rules.parameters
        resolver.nameId (past ++ (block :: later)) block piece := by
      intro piece
      rw [hrules, hevidence block (by simp) piece, List.append_assoc]
      rfl
    obtain ⟨outcome', exact', happly', hagrees'⟩ := hagrees.apply happly hbelow hpieces
    have hlast : exact.accept (block.erased parameters resolver.nameId, evidence block) =
        some { exact with reducer := exact' } := by
      rw [hrules, ← hid] at happly'
      rw [← hid]
      exact ExactResolver.accept_of_apply happly'
    refine ⟨next, { exact with reducer := exact' }, ?_, ?_, hsame, hid, hagrees'⟩
    · rw [List.map_append, List.map_singleton, Reducer.replay_append, hreplay]
      exact haccept
    · rw [List.map_append, ExactResolver.replay, List.foldlM_append]
      rw [ExactResolver.replay] at hexact
      rw [hexact]
      exact (bind_pure _).trans hlast

end Replay

/-! ### The small chain without its COMMIT -/

namespace Sample

/-- The COMMIT of the small chain, as evidence. -/
def commitPiece : ReferencedCommit := ⟨⟨0, 0, Vector.replicate 32 10⟩, commitment⟩

/-- The evidence for the blocks of the small chain. -/
def chainEvidence (block : Block) : List ReferencedCommit :=
  if block.height = 1 then [commitPiece] else []

/-- The small chain. -/
def chain : List Block := [block0, block1, block2]

theorem mem_chainEvidence_iff {nameId : NameId} (hid : alice.id = .ok nameId) :
    ∀ block ∈ chain, ∀ piece, piece ∈ chainEvidence block ↔
      IsEvidence parameters nameId chain block piece := by
  have hwindow : parameters.acceptsOperation nameId 1 = true := by
    have hevaluated : (alice.id.toOption.map fun nameId ↦ parameters.acceptsOperation nameId 1) =
        some true := by decide +kernel
    rw [hid] at hevaluated
    exact Option.some.inj hevaluated
  have hcommitted : ∀ commitment', CommittedAt chain commitPiece.reference commitment' ↔
      commitment = commitment' := by
    intro commitment'
    simp [CommittedAt, CommitIn, chain, block0, block1, block2, commitPiece, commitTransaction]
  intro block hmem piece
  simp only [chain, List.mem_cons, List.not_mem_nil, or_false] at hmem
  rcases hmem with rfl | rfl | rfl
  · rw [show chainEvidence block0 = [] from rfl]
    refine ⟨fun h ↦ absurd h List.not_mem_nil, fun h ↦ ?_⟩
    obtain ⟨transaction, htransaction, op, hop, -⟩ := h.referenced
    rw [Block.erased, block0, List.map_singleton, List.mem_singleton] at htransaction
    rw [htransaction] at hop
    exact absurd hop (by simp [Transaction.erased, commitTransaction])
  · rw [show chainEvidence block1 = [commitPiece] from rfl, List.mem_singleton]
    constructor
    · rintro rfl
      obtain ⟨op, hop, hname, hreference⟩ : ∃ op, revealTransaction.operation = some (.reveal op) ∧
          op.name = alice ∧ op.commit = commitPiece.reference := ⟨_, rfl, rfl, rfl⟩
      refine ⟨⟨revealTransaction.erased parameters nameId 1, List.mem_singleton_self _, op, ?_,
        by rw [hname, hid], hreference⟩, by decide, by decide, by decide, (hcommitted _).2 rfl⟩
      rw [Transaction.erased, Option.filter_eq_some_iff]
      exact ⟨hop, hwindow⟩
    · intro h
      obtain ⟨transaction, htransaction, op, hop, -, hreference⟩ := h.referenced
      rw [Block.erased, block1, List.map_singleton, List.mem_singleton] at htransaction
      rw [htransaction, Transaction.erased, revealTransaction, Option.filter_eq_some_iff] at hop
      have hop' := Operation.reveal.inj (Option.some.inj hop.1)
      have hpiece : piece.reference = commitPiece.reference := by
        rw [← hreference, ← hop']
        rfl
      have hcommitment := h.committed
      rw [hpiece, hcommitted] at hcommitment
      rcases piece with ⟨reference, commitment'⟩
      subst hpiece hcommitment
      rfl
  · rw [show chainEvidence block2 = [] from rfl]
    refine ⟨fun h ↦ absurd h List.not_mem_nil, fun h ↦ ?_⟩
    obtain ⟨transaction, htransaction, op, hop, -⟩ := h.referenced
    rw [Block.erased, block2, List.map_singleton, List.mem_singleton] at htransaction
    rw [htransaction] at hop
    exact absurd hop (by simp [Transaction.erased, spendTransaction])

theorem exact_replay_agrees_chain : ∃ resolver full exact,
    ExactResolver.new parameters parent alice verifier = .ok resolver ∧
    start.replay (chain.map fun block ↦ (block, [])) = some full ∧
    resolver.replay (chain.map fun block ↦
      (block.erased parameters resolver.nameId, chainEvidence block)) = some exact ∧
    ∀ height, exact.resolve height = full.resolveAuthenticated alice height := by
  have hfull : (start.replay (chain.map fun block ↦ (block, []))).isSome = true := by
    decide +kernel
  obtain ⟨final, hfinal⟩ := Option.isSome_iff_exists.1 hfull
  obtain ⟨resolver, hresolver⟩ := exists_resolver
  have hid : alice.id = .ok resolver.nameId := by
    rw [← (ExactResolver.new_eq_ok_iff.1 hresolver).1]
    exact resolver.id_eq
  obtain ⟨full, exact, hreplay, hreplay', hresolve⟩ := exact_replay_agrees new_eq_start hresolver
    hfinal (mem_chainEvidence_iff hid) (List.prefix_refl chain)
  exact ⟨resolver, full, exact, hresolver, hreplay, hreplay', hresolve⟩

end Sample

end CoppiceNames
