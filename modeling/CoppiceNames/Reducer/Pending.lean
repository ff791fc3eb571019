import CoppiceNames.Reducer.Lineage
import CoppiceNames.Reducer.Locality

/-!
# Pending COMMITs from the chain

A pending COMMIT is one that the chain contains, or that came as evidence with one of its blocks,
until it is too old. The evidence of a block cannot overwrite anything (`supply` compares it with
what is pending), so the order in which COMMITs arrive does not matter.
-/

open Std hiding not_le not_lt

namespace CoppiceNames

section Pending

variable [Primitives]

/-- `pending_commit`. -/
def Reducer.pendingCommit (reducer : Reducer) (reference : CommitRef) : Option Commitment :=
  reducer.commits[reference]?

/-- The COMMIT is part of a block of the chain, or of the evidence that came with one. -/
def Observed (chain : List (Block × List ReferencedCommit)) (reference : CommitRef)
    (commitment : Commitment) : Prop :=
  ∃ entry ∈ chain, (entry.1.height = reference.height ∧
    CommitIn entry.1.transactions reference commitment) ∨ ⟨reference, commitment⟩ ∈ entry.2

theorem observed_concat {chain : List (Block × List ReferencedCommit)}
    {entry : Block × List ReferencedCommit} {reference : CommitRef} {commitment : Commitment} :
    Observed (chain ++ [entry]) reference commitment ↔
      Observed chain reference commitment ∨ (entry.1.height = reference.height ∧
        CommitIn entry.1.transactions reference commitment) ∨
          ⟨reference, commitment⟩ ∈ entry.2 := by
  simp only [Observed, List.mem_append, List.mem_singleton, or_and_right, exists_or,
    exists_eq_left]

/-- **What the evidence supplies**: all of it, and nothing else. -/
theorem getElem?_supply {parameters : Parameters}
    {commits supplied supplied' : OrderedMap CommitRef Commitment} {block : Block}
    {evidence : List ReferencedCommit}
    (h : supply parameters commits block supplied evidence = .ok supplied')
    (reference : CommitRef) (commitment : Commitment) :
    supplied'[reference]? = some commitment ↔
      supplied[reference]? = some commitment ∨ ⟨reference, commitment⟩ ∈ evidence := by
  induction evidence generalizing supplied with
  | nil =>
    rw [← Except.ok.inj h]
    simp
  | cons piece rest ih =>
    obtain ⟨own, value⟩ := piece
    rw [supply] at h
    split at h
    · cases h
    split at h
    · cases h
    rename_i hconflict
    have hagrees : ∀ prior, supplied[own]? = some prior → prior = value := by
      intro prior hprior
      rw [not_or, hprior] at hconflict
      simpa using hconflict.1
    rw [ih h, OrderedMap.getElem?_insert_eq_some_iff, List.mem_cons,
      ReferencedCommit.mk.injEq]
    constructor
    · intro hcases
      rcases hcases with (⟨hreference, hcommitment⟩ | ⟨-, hold⟩) | hrest
      · exact Or.inr (Or.inl ⟨hreference.symm, hcommitment.symm⟩)
      · exact Or.inl hold
      · exact Or.inr (Or.inr hrest)
    · intro hcases
      rcases hcases with hold | ⟨hreference, hcommitment⟩ | hrest
      · by_cases hsame : own = reference
        · subst hsame
          exact Or.inl (Or.inl ⟨rfl, (hagrees commitment hold).symm⟩)
        · exact Or.inl (Or.inr ⟨hsame, hold⟩)
      · exact Or.inl (Or.inl ⟨hreference.symm, hcommitment.symm⟩)
      · exact Or.inr hrest

/-- The COMMITs at the start of a block: those pending that are not too old, and the evidence. -/
theorem Ledger.getElem?_startBlock_commits {ledger : Ledger} {parameters : Parameters}
    {supplied : OrderedMap CommitRef Commitment} {block : Block} {evidence : List ReferencedCommit}
    (h : supply parameters ledger.commits block ∅ evidence = .ok supplied) (reference : CommitRef)
    (commitment : Commitment) :
    (ledger.startBlock parameters block.height supplied).commits[reference]? = some commitment ↔
      (ledger.commits[reference]? = some commitment ∧
        block.height.val - reference.height.val < parameters.commitTtlBlocks.val) ∨
      ⟨reference, commitment⟩ ∈ evidence := by
  have hempty : (∅ : OrderedMap CommitRef Commitment)[reference]? ≠ some commitment := by simp
  have hsupplied : supplied[reference]? = some commitment ↔ ⟨reference, commitment⟩ ∈ evidence :=
    (getElem?_supply h reference commitment).trans (or_iff_right hempty)
  rw [startBlock_commits, Option.or_eq_some_iff, Option.filter_eq_some_iff, decide_eq_true_eq,
    hsupplied]
  constructor
  · intro hcases
    rcases hcases with hin | ⟨-, hpending⟩
    · exact Or.inr hin
    · exact Or.inl hpending
  · intro hcases
    rcases hcases with hpending | hin
    · -- evidence for a pending COMMIT agrees with it
      rcases hnone : supplied[reference]? with - | other
      · exact Or.inr ⟨rfl, hpending⟩
      · rcases supply_eq_ok h hnone with hold | ⟨hin, -, hagrees⟩
        · exact absurd hold (by simp)
        · rw [hagrees commitment hpending.1]
          exact Or.inl hin
    · exact Or.inl hin

/-- **One block more.** -/
theorem ScanReducer.getElem?_applyBlock_commits {s s' : ScanReducer} {block : Block}
    {evidence : List ReferencedCommit} {outcome : ScanOutcome} (hinv : s.Inv)
    (h : s.applyBlock block evidence = .ok (outcome, s')) (reference : CommitRef)
    (commitment : Commitment) :
    s'.ledger.commits[reference]? = some commitment ↔
      (s.ledger.commits[reference]? = some commitment ∧
        block.height.val - reference.height.val < s.rules.parameters.commitTtlBlocks.val) ∨
      (block.height = reference.height ∧ CommitIn block.transactions reference commitment) ∨
      ⟨reference, commitment⟩ ∈ evidence := by
  obtain ⟨supplied, hheight, -, hcheck, hsupply, rfl, -⟩ := applyBlock_eq_ok h
  refine ((hinv.startBlock hheight hsupply).getElem?_applyTransactions_commits hcheck).trans ?_
  rw [Ledger.getElem?_startBlock_commits hsupply, or_right_comm, or_assoc,
    eq_comm (a := reference.height)]

/-- **Every replay.** The induction is on the blocks from the last one. -/
theorem Reducer.getElem?_commits_of_replay {start last : Reducer}
    {chain : List (Block × List ReferencedCommit)} {parameters : Parameters} {parent : Bytes32}
    {verifier : ProofVerifier} (hnew : Reducer.new parameters parent verifier = .ok start)
    (hreplay : start.replay chain = some last) :
    (last.tipHeight = none → chain = []) ∧
      ∀ (reference : CommitRef) (commitment : Commitment),
        last.commits[reference]? = some commitment ↔ Observed chain reference commitment ∧
          ∃ tip, last.tipHeight = some tip ∧
            tip.val - reference.height.val < parameters.commitTtlBlocks.val := by
  induction chain using List.reverseRecOn generalizing last with
  | nil =>
    cases hreplay
    obtain ⟨valid, rfl⟩ := Reducer.new_eq_ok_iff.1 hnew
    refine ⟨fun _ ↦ rfl, fun reference commitment ↦ ?_⟩
    simp [Records.empty, Observed]
  | append_singleton chain entry ih =>
    rw [replay_append, Option.bind_eq_some_iff] at hreplay
    obtain ⟨previous, hprevious, haccept⟩ := hreplay
    obtain ⟨outcome, happly⟩ := accept_eq_some_iff.1 haccept
    have hindexed := indexed_replay (indexed_new hnew) hprevious
    have hinv := inv_replay (indexed_new hnew) (inv_new hnew) hprevious
    obtain ⟨s, hscan, -⟩ := scan_of_apply hindexed happly
    obtain ⟨supplied, hheight, -, -, hsupply, hadvance, -⟩ := ScanReducer.applyBlock_eq_ok hscan
    have htip : last.tipHeight = some entry.1.height := congrArg ScanReducer.tipHeight hadvance
    have hparameters : previous.rules.parameters = parameters := by
      rw [rules_replay hprevious]
      obtain ⟨valid, rfl⟩ := Reducer.new_eq_ok_iff.1 hnew
      rfl
    obtain ⟨hnone, hcommits⟩ := ih hprevious
    refine ⟨fun h ↦ absurd (htip.symm.trans h) (by simp), fun reference commitment ↦ ?_⟩
    have hlast : last.commits[reference]? = some commitment ↔ _ :=
      ScanReducer.getElem?_applyBlock_commits hinv hscan reference commitment
    rw [hlast, show previous.scan.ledger.commits = previous.commits from rfl, hcommits,
      show previous.scan.rules.parameters = parameters from hparameters, observed_concat, htip]
    have hpos := previous.rules.valid.ttl_pos
    rw [hparameters] at hpos
    constructor
    · intro hcases
      rcases hcases with ⟨⟨hobserved, -⟩, hage⟩ | ⟨hown, hin⟩ | hin
      · exact ⟨Or.inl hobserved, _, rfl, hage⟩
      · exact ⟨Or.inr (Or.inl ⟨hown, hin⟩), _, rfl, by rw [hown]; omega⟩
      · -- admitted evidence is not too old
        have hsupplied := ((getElem?_supply hsupply reference commitment).2 (Or.inr hin))
        obtain ⟨-, -, -, hage⟩ := evidential_of_supply hsupply reference
          (OrderedMap.mem_of_getElem?_eq_some hsupplied)
        rw [show previous.scan.rules.parameters = parameters from hparameters] at hage
        exact ⟨Or.inr (Or.inr hin), _, rfl, hage⟩
    · intro h
      obtain ⟨hobserved, tip, hsame, hage⟩ := h
      rw [Option.some.injEq] at hsame
      subst hsame
      rcases hobserved with hobserved | hown | hin
      · rcases hpast : previous.tipHeight with - | tip'
        · rw [hnone hpast] at hobserved
          obtain ⟨entry', hmem, -⟩ := hobserved
          exact absurd hmem List.not_mem_nil
        · have hnext := (hinv.atTip hpast hheight).1
          exact Or.inl ⟨⟨hobserved, tip', rfl, by omega⟩, hage⟩
      · exact Or.inr (Or.inl hown)
      · exact Or.inr (Or.inr hin)

/-- **Pending COMMITs are those of the chain.** In every state that calls reach from a new reducer,
at its tip, a COMMIT is pending exactly when a surviving block contains it at its reference or came
with it as evidence, and it is younger than its lifetime. -/
theorem pending_from_chain {parameters : Parameters} {parent : Bytes32} {verifier : ProofVerifier}
    {start reducer : Reducer} {calls : List Call} {replies : List Reply}
    (hnew : Reducer.new parameters parent verifier = .ok start)
    (hrun : start.run calls = some (replies, reducer)) {tip : U32}
    (htip : reducer.tipHeight = some tip) (reference : CommitRef) (commitment : Commitment) :
    reducer.pendingCommit reference = some commitment ↔
      Observed (survivors calls replies) reference commitment ∧
        tip.val - reference.height.val < parameters.commitTtlBlocks.val := by
  obtain ⟨fresh, hreplay, hreducer, -⟩ := Survives.of_run hnew hrun
  have htip' : fresh.tipHeight = some tip := (congrArg Reducer.tipHeight hreducer).symm.trans htip
  have hcommits : reducer.commits = fresh.commits := congrArg (fun r ↦ r.commits) hreducer
  rw [Reducer.pendingCommit, hcommits,
    (Reducer.getElem?_commits_of_replay hnew hreplay).2 reference commitment, htip']
  simp

end Pending

namespace Sample

/-- Block zero without its COMMIT. -/
def bareBlock0 : Block := { block0 with transactions := [] }

/-- The COMMIT that was in block zero. -/
def evidence0 : ReferencedCommit := ⟨⟨0, 0, commitTransaction.txid⟩, commitment⟩

/-- Block zero is rolled back and comes again without its COMMIT, which the REVEAL of the next block
then brings as evidence. -/
theorem pending_from_chain_evidence : ∃ replies reducer,
    start.run [.applyBlock block0 [], .rollbackTip block0.hash, .applyBlock bareBlock0 [],
      .applyBlock block1 [evidence0]] = some (replies, reducer) ∧
    reducer.tipHeight = some 1 ∧
    survivors [.applyBlock block0 [], .rollbackTip block0.hash, .applyBlock bareBlock0 [],
      .applyBlock block1 [evidence0]] replies = [(bareBlock0, []), (block1, [evidence0])] ∧
    reducer.pendingCommit evidence0.reference = some commitment ∧
    ∀ reference own, reducer.pendingCommit reference = some own ↔
      Observed [(bareBlock0, []), (block1, [evidence0])] reference own ∧
        1 - reference.height.val < parameters.commitTtlBlocks.val := by
  have hevaluated : (start.run [.applyBlock block0 [], .rollbackTip block0.hash,
      .applyBlock bareBlock0 [], .applyBlock block1 [evidence0]]).map (fun result ↦
        (result.2.tipHeight, survivors [.applyBlock block0 [], .rollbackTip block0.hash,
          .applyBlock bareBlock0 [], .applyBlock block1 [evidence0]] result.1,
          result.2.pendingCommit evidence0.reference)) =
      some (some 1, [(bareBlock0, []), (block1, [evidence0])], some commitment) := by
    decide +kernel
  simp only [Option.map_eq_some_iff, Prod.mk.injEq] at hevaluated
  obtain ⟨⟨replies, reducer⟩, hrun, htip, hsurvivors, hpending⟩ := hevaluated
  refine ⟨replies, reducer, hrun, htip, hsurvivors, hpending, ?_⟩
  rw [← hsurvivors]
  exact pending_from_chain new_eq_start hrun htip

end Sample

end CoppiceNames
