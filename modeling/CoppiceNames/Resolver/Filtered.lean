import CoppiceNames.Resolver.Replay

/-!
# The resolver on blocks with all COMMITs

A resolver that gets the blocks themselves filters out the operations of other names and keeps every
COMMIT. Its reducer then has the COMMITs of the full reducer, and the head of its name (`Alike`):
the COMMITs depend on the COMMIT operations only, and the head of a name on nothing that the filter
drops.
-/

open Std hiding not_le not_lt

namespace CoppiceNames

section Filtered

variable [Primitives]

/-- The COMMITs after a block depend on its COMMIT operations only. -/
theorem Ledger.applyTransactions_commits_congr {F R : Ledger} {rules : Rules} {height : U32}
    {transactions : List Transaction} {g : Transaction → Transaction}
    (hcommits : ∀ reference : CommitRef, F.commits[reference]? = R.commits[reference]?)
    (hg : ∀ transaction, (g transaction).txIndex = transaction.txIndex ∧
      (g transaction).txid = transaction.txid ∧
      ∀ commitment, (g transaction).operation = some (.commit commitment) ↔
        transaction.operation = some (.commit commitment)) (reference : CommitRef) :
    (F.applyTransactions rules height transactions).2.2.commits[reference]? =
      (R.applyTransactions rules height (transactions.map g)).2.2.commits[reference]? := by
  induction transactions generalizing F R with
  | nil => exact hcommits reference
  | cons transaction rest ih =>
    refine ih fun other ↦ ?_
    obtain ⟨hindex, htxid, hop⟩ := hg transaction
    rw [getElem?_applyTransaction_commits, getElem?_applyTransaction_commits, hindex, htxid]
    split
    · rename_i commitment hcommit
      rw [(hop commitment).2 hcommit]
      dsimp only
      rw [hcommits other]
    · rename_i hnone
      split
      · rename_i commitment hcommit
        exact absurd ((hop commitment).1 hcommit) (hnone commitment)
      · exact hcommits other

/-- Filtering keeps the position and every COMMIT. -/
theorem Transaction.commit_filtered {nameId : NameId} (transaction : Transaction) :
    (transaction.filtered nameId).txIndex = transaction.txIndex ∧
      (transaction.filtered nameId).txid = transaction.txid ∧
      ∀ commitment, (transaction.filtered nameId).operation = some (.commit commitment) ↔
        transaction.operation = some (.commit commitment) := by
  refine ⟨rfl, rfl, fun commitment ↦ ?_⟩
  rw [filtered, Option.filter_eq_some_iff]
  exact ⟨fun h ↦ h.1, fun h ↦ ⟨h, rfl⟩⟩

/-- Filtering keeps everything that can touch the name. -/
theorem Ledger.sameFor_filtered (parameters : Parameters) (nameId : NameId) (height : U32)
    (transaction : Transaction) :
    SameFor parameters height nameId transaction (transaction.filtered nameId) where
  actions := rfl
  eq_of_touches htouches := by
    have hop : ∃ op, transaction.operation = some op ∧
        (transaction.filtered nameId).operation = some op := by
      rcases htouches with ⟨-, op, hop, hconcerns⟩ | ⟨-, op, hop, -⟩
      · refine ⟨op, hop, Option.filter_eq_some_iff.2 ⟨hop, ?_⟩⟩
        rcases op with commitment | op | op
        · rfl
        · exact decide_eq_true hconcerns
        · exact decide_eq_true hconcerns
      · exact ⟨op, (Option.filter_eq_some_iff.1 hop).1, hop⟩
    obtain ⟨op, hop, hfiltered⟩ := hop
    rw [← hop] at hfiltered
    exact congrArg (fun operation ↦ { transaction with operation := operation }) hfiltered

/-- The filtered block references nothing else. -/
theorem mem_revealReferences {block : Block} {nameId : NameId} {reference : CommitRef}
    (h : reference ∈ (block.filtered nameId).revealReferences) :
    reference ∈ block.revealReferences := by
  obtain ⟨transaction, hmem, hreference⟩ := List.mem_filterMap.1 h
  split at hreference
  · rename_i op hop
    obtain ⟨-, original, horiginal, hsame⟩ := Block.operation_of_filtered hmem hop
    refine List.mem_filterMap.2 ⟨original, horiginal, ?_⟩
    rw [hsame]
    exact hreference
  · exact absurd hreference (by simp)

/-- Evidence that the filtered block references is referenced by the block. -/
theorem supply_of_filtered {parameters : Parameters} {commits supplied result : OrderedMap CommitRef
    Commitment} {block : Block} {nameId : NameId} {evidence : List ReferencedCommit}
    (h : supply parameters commits (block.filtered nameId) supplied evidence = .ok result) :
    supply parameters commits block supplied evidence = .ok result := by
  induction evidence generalizing supplied with
  | nil => exact h
  | cons piece rest ih =>
    rw [supply] at h ⊢
    split at h
    · exact absurd h (by simp)
    · rename_i hrange
      rw [not_or, not_not] at hrange
      rw [if_neg (by rw [not_or, not_not]; exact ⟨mem_revealReferences hrange.1, hrange.2⟩)]
      split at h
      · exact absurd h (by simp)
      · rename_i hconsistent
        rw [if_neg hconsistent]
        exact ih h

/-- **The full reducer and the resolver's reducer after the same blocks and evidence.** -/
structure Alike (nameId : NameId) (full exact : Reducer) : Prop where
  rules : exact.rules = full.rules
  nextHeight : exact.nextHeight = full.nextHeight
  tipHeight : exact.tipHeight = full.tipHeight
  previousHash : exact.previousHash = full.previousHash
  full_indexed : full.toRecords.Indexed
  exact_indexed : exact.toRecords.Indexed
  head : full.heads[nameId]? = exact.heads[nameId]?
  commits : full.commits = exact.commits

namespace Alike

variable {nameId : NameId} {full exact : Reducer}

/-- **One block.** -/
theorem apply (h : Alike nameId full exact) {block : Block} {evidence : List ReferencedCommit}
    {outcome : BlockOutcome} {exact' : Reducer}
    (happly : exact.applyBlockDetailed (block.filtered nameId) evidence =
      some (.ok outcome, exact')) :
    ∃ outcome' full', full.applyBlockDetailed block evidence = some (.ok outcome', full') ∧
      Alike nameId full' exact' := by
  obtain ⟨s, hscan, -⟩ := Reducer.scan_of_apply h.exact_indexed happly
  obtain ⟨supplied, hheight, hhash, hcheck, hsupply, hexact, -⟩ :=
    ScanReducer.applyBlock_eq_ok hscan
  -- the full reducer admits the block with the same evidence
  have hadmission : admission full.rules.parameters full.nextHeight full.previousHash full.commits
      block evidence = .ok supplied := by
    have hindices := checkTransactions_map (g := fun transaction ↦ transaction.filtered nameId)
      (fun _ ↦ ⟨rfl, rfl⟩) none block.transactions
    have hsupply' : supply full.rules.parameters full.commits (block.filtered nameId) ∅ evidence =
        .ok supplied := by
      rw [← h.rules, h.commits]
      exact hsupply
    refine admission_of_checks ?_ ?_ ?_ (supply_of_filtered hsupply')
    · rw [← h.nextHeight]
      exact hheight
    · rw [← h.previousHash]
      exact hhash
    · rw [← hindices]
      exact hcheck
  obtain ⟨outcome', o, s', hok, htracks, hscan', -⟩ := Reducer.applyBlockDetailed_of_admission
    (C := Set.univ) (H := Set.univ) h.full_indexed hadmission (fun _ _ ↦ trivial)
    (fun _ _ ↦ trivial) (fun _ _ ↦ trivial) fun _ _ ↦ ⟨fun _ _ ↦ trivial, fun _ _ _ _ ↦ trivial⟩
  obtain ⟨supplied', -, -, -, hsupply', hfull, -⟩ := ScanReducer.applyBlock_eq_ok hscan'
  have hsame : supplied' = supplied := by
    have hsupplied := (admission_eq_ok hadmission).2.2.2
    rw [show supply full.rules.parameters full.commits block ∅ evidence = _ from hsupply',
      Except.ok.injEq] at hsupplied
    exact hsupplied
  subst hsame
  -- the records of both after the block
  have hfullLedger : (full.closeBlock block o).ledger = ((full.ledger.startBlock
      full.rules.parameters block.height supplied').applyTransactions full.rules block.height
        block.transactions).2.2 := congrArg ScanReducer.ledger hfull
  have hexactLedger : exact'.ledger = ((exact.ledger.startBlock full.rules.parameters block.height
      supplied').applyTransactions full.rules block.height
        (block.transactions.map (·.filtered nameId))).2.2 := by
    rw [show exact.scan.rules = full.rules from h.rules] at hexact
    exact congrArg ScanReducer.ledger hexact
  have hstart : ∀ reference : CommitRef,
      (full.ledger.startBlock full.rules.parameters block.height supplied').commits[reference]? =
        (exact.ledger.startBlock full.rules.parameters block.height
          supplied').commits[reference]? := by
    intro reference
    rw [Ledger.startBlock_commits, Ledger.startBlock_commits,
      show full.ledger.commits = exact.ledger.commits from h.commits]
  refine ⟨outcome', _, hok,
    { rules := ?_, nextHeight := ?_, tipHeight := ?_, previousHash := ?_,
      full_indexed := htracks.indexed, exact_indexed := ?_, head := ?_, commits := ?_ }⟩
  · exact (congrArg ScanReducer.rules hexact).trans h.rules
  · exact congrArg ScanReducer.nextHeight hexact
  · exact congrArg ScanReducer.tipHeight hexact
  · exact congrArg ScanReducer.previousHash hexact
  · have hcall : exact.call (.applyBlock (block.filtered nameId) evidence) =
        some (.applied (.ok outcome), exact') := by
      rw [Reducer.call, happly]
      rfl
    exact Reducer.indexed_call h.exact_indexed hcall
  · rw [show (full.closeBlock block o).heads = _ from congrArg Ledger.heads hfullLedger,
      show exact'.heads = _ from congrArg Ledger.heads hexactLedger]
    exact Ledger.applyTransactions_agree
      (Ledger.startBlock_agree h.head full.rules.parameters supplied' supplied')
      (fun transaction _ ↦ Ledger.sameFor_filtered full.rules.parameters nameId block.height
        transaction)
      fun _ _ op _ _ _ _ ↦ hstart op.commit
  · rw [show (full.closeBlock block o).commits = _ from congrArg Ledger.commits hfullLedger,
      show exact'.commits = _ from congrArg Ledger.commits hexactLedger]
    exact ExtTreeMap.ext_getElem? fun reference ↦
      Ledger.applyTransactions_commits_congr hstart Transaction.commit_filtered reference

/-- New reducers are alike. -/
theorem new {parameters : Parameters} {parent : Bytes32} {verifier : ProofVerifier}
    {start : Reducer} (hnew : Reducer.new parameters parent verifier = .ok start) :
    Alike nameId start start :=
  ⟨rfl, rfl, rfl, rfl, Reducer.indexed_new hnew, Reducer.indexed_new hnew, rfl, rfl⟩

/-- **Every replay.** -/
theorem replay (h : Alike nameId full exact) {blocks : List (Block × List ReferencedCommit)}
    {exact' : Reducer}
    (hreplay : exact.replay (blocks.map fun block ↦ (block.1.filtered nameId, block.2)) =
      some exact') :
    ∃ full', full.replay blocks = some full' ∧ Alike nameId full' exact' := by
  induction blocks generalizing full exact with
  | nil =>
    rw [← Option.some.inj hreplay]
    exact ⟨full, rfl, h⟩
  | cons block blocks ih =>
    obtain ⟨next, haccept, hrest⟩ := Reducer.replay_cons_eq_some_iff.1 hreplay
    obtain ⟨outcome, happly⟩ := Reducer.accept_eq_some_iff.1 haccept
    obtain ⟨outcome', full', hfull, halike⟩ := h.apply happly
    obtain ⟨full'', hreplay', halike'⟩ := ih halike hrest
    exact ⟨full'', Reducer.replay_cons_eq_some_iff.2
      ⟨full', Reducer.accept_eq_some_iff.2 ⟨outcome', hfull⟩, hreplay'⟩, halike'⟩

end Alike

end Filtered

end CoppiceNames
