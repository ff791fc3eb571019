import CoppiceNames.Reducer.Invariant
import CoppiceNames.Reducer.Reorg

/-!
# Reachable states

The invariant of the scanning reducer, kept by every accepted block and so true of every replay from
a new reducer; by reorganisation soundness it holds of every state that any calls reach from one.

It settles the one place where indexed and scanning reducer could differ. `compact_claimable` walks
terminal heads by height and then by name, the scan by name; but all heads released by one block
became terminal at the same height (`Ledger.Inv.oneTerminal`).
-/

open Std hiding not_le not_lt

namespace CoppiceNames

section Reachable

variable [Primitives]

/-! ### The invariant of the scanning reducer -/

/-- Without a tip there are no records; at a tip the records satisfy their invariant there. -/
def ScanReducer.Inv (s : ScanReducer) : Prop :=
  match s.tipHeight with
  | none => s.nextHeight = some s.rules.parameters.activationHeight ∧ s.ledger = Ledger.empty
  | some tip => s.nextHeight = U32.checkedAdd tip 1 ∧
      s.ledger.Inv s.rules.parameters tip 4294967296

theorem admission_eq_ok {parameters : Parameters} {nextHeight : Option U32}
    {previousHash : Bytes32} {commits supplied : OrderedMap CommitRef Commitment} {block : Block}
    {evidence : List ReferencedCommit}
    (h : admission parameters nextHeight previousHash commits block evidence = .ok supplied) :
    some block.height = nextHeight ∧ block.prevHash = previousHash ∧
      checkTransactions none block.transactions = .ok () ∧
      supply parameters commits block ∅ evidence = .ok supplied := by
  rw [admission] at h
  split at h
  · cases h
  rename_i hheight
  split at h
  · cases h
  rename_i hhash
  split at h
  · cases h
  rename_i hcheck
  exact ⟨not_not.1 hheight, not_not.1 hhash, hcheck, h⟩

theorem admission_of_checks {parameters : Parameters} {nextHeight : Option U32}
    {previousHash : Bytes32} {commits supplied : OrderedMap CommitRef Commitment} {block : Block}
    {evidence : List ReferencedCommit} (hheight : some block.height = nextHeight)
    (hhash : block.prevHash = previousHash)
    (hcheck : checkTransactions none block.transactions = .ok ())
    (hsupply : supply parameters commits block ∅ evidence = .ok supplied) :
    admission parameters nextHeight previousHash commits block evidence = .ok supplied := by
  rw [admission, if_neg (not_not.2 hheight), if_neg (not_not.2 hhash), hcheck]
  exact hsupply

theorem evidential_of_supply {parameters : Parameters}
    {commits supplied : OrderedMap CommitRef Commitment} {block : Block}
    {evidence : List ReferencedCommit}
    (h : supply parameters commits block ∅ evidence = .ok supplied) :
    ∀ reference ∈ supplied, Evidential parameters block reference := by
  intro reference hmem
  rw [ExtTreeMap.mem_iff_isSome_getElem?, Option.isSome_iff_exists] at hmem
  obtain ⟨commitment, hcommitment⟩ := hmem
  rcases supply_eq_ok h hcommitment with hempty | ⟨-, hevidential, -⟩
  · simp at hempty
  · exact hevidential

/-- The accepted block of the scanning reducer, in parts. -/
theorem ScanReducer.applyBlock_eq_ok {s s' : ScanReducer} {block : Block}
    {evidence : List ReferencedCommit} {outcome : ScanOutcome}
    (h : s.applyBlock block evidence = .ok (outcome, s')) :
    ∃ supplied, some block.height = s.nextHeight ∧ block.prevHash = s.previousHash ∧
      checkTransactions none block.transactions = .ok () ∧
      supply s.rules.parameters s.ledger.commits block ∅ evidence = .ok supplied ∧
      s' = s.advance block ((s.ledger.startBlock s.rules.parameters block.height
        supplied).applyTransactions s.rules block.height block.transactions).2.2 ∧
      outcome.decisions = ((s.ledger.startBlock s.rules.parameters block.height
        supplied).applyTransactions s.rules block.height block.transactions).1 ∧
      outcome.terminated = ((s.ledger.startBlock s.rules.parameters block.height
        supplied).applyTransactions s.rules block.height block.transactions).2.1 := by
  rw [applyBlock] at h
  split at h
  · cases h
  rename_i supplied hadmission
  cases h
  obtain ⟨h₁, h₂, h₃, h₄⟩ := admission_eq_ok hadmission
  exact ⟨supplied, h₁, h₂, h₃, h₄, rfl, rfl, rfl⟩

namespace ScanReducer

variable {s s' : ScanReducer} {block : Block} {evidence : List ReferencedCommit}
  {outcome : ScanOutcome}

/-- The records at the start of an admitted block. -/
theorem Inv.startBlock (h : s.Inv) (hheight : some block.height = s.nextHeight)
    {supplied : OrderedMap CommitRef Commitment}
    (hsupply : supply s.rules.parameters s.ledger.commits block ∅ evidence = .ok supplied) :
    (s.ledger.startBlock s.rules.parameters block.height supplied).Inv s.rules.parameters
      block.height 0 := by
  have hevidential := evidential_of_supply hsupply
  rw [Inv] at h
  split at h
  · obtain ⟨hnext, hempty⟩ := h
    rw [hnext, Option.some.injEq] at hheight
    rw [hempty]
    exact Ledger.Inv.startFirst hheight hevidential
  · rename_i tip htip
    obtain ⟨hnext, hledger⟩ := h
    rw [hnext] at hheight
    have hval := U32.checkedAdd_eq_some_iff.1 hheight.symm
    exact hledger.startBlock hval hevidential

/-- **One block keeps the invariant.** -/
theorem Inv.applyBlock (h : s.Inv) (happly : s.applyBlock block evidence = .ok (outcome, s')) :
    s'.Inv := by
  obtain ⟨supplied, hheight, -, hcheck, hsupply, rfl, -⟩ := applyBlock_eq_ok happly
  exact ⟨rfl, (h.startBlock hheight hsupply).applyTransactions hcheck⟩

/-- All heads that a block releases became terminal at the same height. -/
theorem Inv.oneTerminal (h : s.Inv) (hheight : some block.height = s.nextHeight) :
    Tracks.OneTerminal (s.ledger.markExpired block.height).heads s.rules.parameters
      block.height := by
  rw [Inv] at h
  split at h
  · intro a b head head' ha
    rw [h.2, Ledger.getElem?_markExpired] at ha
    simp [Ledger.empty] at ha
  rename_i tip htip
  obtain ⟨hnext, hledger⟩ := h
  rw [hnext] at hheight
  have hval : block.height.val = tip.val + 1 := U32.checkedAdd_eq_some_iff.1 hheight.symm
  have hpos := s.rules.valid.cooldown_pos
  -- a released head was terminal before the block, at a height that is a cooldown ago
  have hrelease : ∀ (a : NameId) (head : Head),
      (s.ledger.markExpired block.height).heads[a]? = some head →
      head.released s.rules.parameters block.height = true →
      ∃ x, head.terminalHeight = some x ∧
        x.val + s.rules.parameters.cooldownBlocks.val = block.height.val := by
    intro a head ha hreleased
    rw [Ledger.getElem?_markExpired, Option.map_eq_some_iff] at ha
    obtain ⟨previous, hprevious, rfl⟩ := ha
    have hinv := hledger.head a previous hprevious
    rw [Head.released, Option.any_eq_true] at hreleased
    obtain ⟨x, hx, hle⟩ := hreleased
    rw [decide_eq_true_eq] at hle
    refine ⟨x, hx, ?_⟩
    rw [Head.expire] at hx
    split at hx
    · rename_i hexpired
      have hactive := hinv.active hexpired.1
      simp only [Option.some.injEq] at hx
      grind
    · have hterm := (hinv.terminal x hx).2.2.2
      omega
  intro a b head head' ha hb hreleased hreleased'
  obtain ⟨x, hx, hxval⟩ := hrelease a head ha hreleased
  obtain ⟨y, hy, hyval⟩ := hrelease b head' hb hreleased'
  rw [hx, hy, Option.some.injEq, Fin.ext_iff]
  omega

end ScanReducer

/-! ### Replays -/

namespace Reducer

variable {start fresh : Reducer} {blocks : List (Block × List ReferencedCommit)}

theorem inv_new {parameters : Parameters} {parent : Bytes32} {verifier : ProofVerifier}
    (h : Reducer.new parameters parent verifier = .ok start) : start.scan.Inv := by
  obtain ⟨valid, rfl⟩ := new_eq_ok_iff.1 h
  exact ⟨rfl, rfl⟩

/-- An accepted block is accepted by the scanning reducer. -/
theorem scan_of_apply (hindexed : start.toRecords.Indexed) {block : Block}
    {evidence : List ReferencedCommit} {outcome : BlockOutcome}
    (h : start.applyBlockDetailed block evidence = some (.ok outcome, fresh)) :
    ∃ s, start.scan.applyBlock block evidence = .ok (s, fresh.scan) ∧
      outcome.accepted = s.accepted ∧ outcome.decisions = s.decisions ∧
      outcome.terminated = s.terminated ∧
      (Tracks.OneTerminal (start.ledger.markExpired block.height).heads start.rules.parameters
        block.height → outcome.compacted = s.compacted) := by
  rcases applyBlockDetailed_spec hindexed block evidence with
    ⟨e, -, hfailed, -⟩ | ⟨outcome', o, s, hok, -, hscan, h₁, h₂, h₃, h₄, -⟩
  · rw [hfailed] at h
    cases h
  · rw [hok] at h
    cases h
    exact ⟨s, hscan, h₁, h₂, h₃, h₄⟩

/-- **Every replay satisfies the invariant.** -/
theorem inv_replay (hindexed : start.toRecords.Indexed) (hinv : start.scan.Inv)
    (h : start.replay blocks = some fresh) : fresh.scan.Inv := by
  induction blocks using List.reverseRecOn generalizing fresh with
  | nil =>
    cases h
    exact hinv
  | append_singleton blocks block ih =>
    rw [replay_append, Option.bind_eq_some_iff] at h
    obtain ⟨previous, hprevious, haccept⟩ := h
    obtain ⟨outcome, happly⟩ := accept_eq_some_iff.1 haccept
    obtain ⟨s, hscan, -⟩ := scan_of_apply (indexed_replay hindexed hprevious) happly
    exact (ih hprevious).applyBlock hscan

end Reducer

/-- The states that calls reach from a new reducer, with the blocks that survived. -/
structure FromNew (parameters : Parameters) (parent : Bytes32) (verifier : ProofVerifier)
    (reducer : Reducer) : Prop where
  reached : ∃ start calls replies, Reducer.new parameters parent verifier = .ok start ∧
    start.run calls = some (replies, reducer)

namespace FromNew

variable {parameters : Parameters} {parent : Bytes32} {verifier : ProofVerifier}
  {reducer : Reducer}

theorem indexed (h : FromNew parameters parent verifier reducer) : reducer.toRecords.Indexed := by
  obtain ⟨start, calls, replies, hnew, hrun⟩ := h.reached
  exact Reducer.indexed_run (Reducer.indexed_new hnew) hrun

/-- Such a state is a replay, apart from journals it no longer retains. -/
theorem survives (h : FromNew parameters parent verifier reducer) :
    ∃ start blocks, Reducer.new parameters parent verifier = .ok start ∧
      Survives start blocks reducer := by
  obtain ⟨start, calls, replies, hnew, hrun⟩ := h.reached
  exact ⟨start, _, hnew, Survives.of_run hnew hrun⟩

theorem toReached (h : FromNew parameters parent verifier reducer) : Reached reducer := by
  obtain ⟨start, calls, replies, hnew, hrun⟩ := h.reached
  exact (Reached.new hnew).run hrun

/-- **Every reachable state satisfies the invariant.** -/
theorem inv (h : FromNew parameters parent verifier reducer) : reducer.scan.Inv := by
  obtain ⟨start, blocks, hnew, fresh, hreplay, hreducer, -⟩ := h.survives
  have hinv := Reducer.inv_replay (Reducer.indexed_new hnew) (Reducer.inv_new hnew) hreplay
  rw [hreducer]
  exact hinv

end FromNew

/-! ### Indexed and scanning reducer -/

/-- **The indexed reducer equals the scanning reducer.** In every state that calls reach from a new
reducer or from any snapshot that loads, the derived indexes are the rebuilt ones and no call
panics; in every state reached from a new reducer, a block has the same result, the same outcome and
the same records after it as under the scanning reducer. -/
theorem indexed_reducer_eq_scan :
    (∀ reducer, Reached reducer →
      reducer.toRecords.rebuildDerivedIndexes = reducer.toRecords ∧
      ∀ c, (reducer.call c).isSome) ∧
    ∀ parameters parent verifier reducer, FromNew parameters parent verifier reducer →
      ∀ block evidence,
        (∃ e, reducer.applyBlockDetailed block evidence = some (.error e, reducer) ∧
          reducer.scan.applyBlock block evidence = .error e) ∨
        ∃ outcome next, reducer.applyBlockDetailed block evidence = some (.ok outcome, next) ∧
          reducer.scan.applyBlock block evidence = .ok (outcome.scan, next.scan) := by
  refine ⟨fun reducer h ↦ ?_, fun parameters parent verifier reducer h block evidence ↦ ?_⟩
  · have hindexed := h.indexed
    exact ⟨(Records.indexed_iff_rebuild _).1 hindexed, Reducer.call_isSome hindexed⟩
  · rcases Reducer.applyBlockDetailed_spec h.indexed block evidence with
      ⟨e, -, hfailed, hscan⟩ | ⟨outcome, o, s, hok, -, hscan, haccepted, hdecisions, hterminated,
        hcompacted, -⟩
    · exact Or.inl ⟨e, hfailed, hscan⟩
    · refine Or.inr ⟨outcome, reducer.closeBlock block o, hok, ?_⟩
      obtain ⟨-, hheight, -⟩ := ScanReducer.applyBlock_eq_ok hscan
      have hcompacted' := hcompacted (h.inv.oneTerminal hheight)
      rw [hscan, BlockOutcome.scan, haccepted, hdecisions, hcompacted', hterminated]

end Reachable

namespace Sample

/-- After its REVEAL `alice` has a head, and the next block spends it. -/
theorem indexed_reducer_eq_scan_spent : ∃ replies reducer outcome next,
    start.run [.applyBlock block0 [], .applyBlock block1 []] = some (replies, reducer) ∧
    reducer.heads.toList.length = 1 ∧
    (reducer.toRecords.rebuildDerivedIndexes = reducer.toRecords ∧
      ∀ c, (reducer.call c).isSome) ∧
    reducer.applyBlockDetailed block2 [] = some (.ok outcome, next) ∧
    outcome.terminated.length = 1 ∧
    reducer.scan.applyBlock block2 [] = .ok (outcome.scan, next.scan) := by
  have hevaluated : (start.run [.applyBlock block0 [], .applyBlock block1 []]).bind (fun result ↦
      (result.2.applyBlockDetailed block2 []).map fun applied ↦
        (result.2.heads.toList.length, applied.1.toOption.map fun outcome ↦
          outcome.terminated.length)) = some (1, some 1) := by
    decide +kernel
  simp only [Option.bind_eq_some_iff, Option.map_eq_some_iff, Prod.mk.injEq,
    Except.toOption_eq_some_iff] at hevaluated
  obtain ⟨⟨replies, reducer⟩, hrun, ⟨result, next⟩, happly, hheads, outcome, rfl, hterminated⟩ :=
    hevaluated
  have hreached : FromNew parameters parent verifier reducer :=
    ⟨start, _, replies, new_eq_start, hrun⟩
  refine ⟨replies, reducer, outcome, next, hrun, hheads,
    indexed_reducer_eq_scan.1 reducer hreached.toReached, happly, hterminated, ?_⟩
  rcases indexed_reducer_eq_scan.2 parameters parent verifier reducer hreached block2 [] with
    ⟨e, hfailed, -⟩ | ⟨outcome', next', happly', hscan⟩
  · rw [hfailed, Option.some.injEq, Prod.mk.injEq] at happly
    exact absurd happly.1 (by simp)
  · rw [happly', Option.some.injEq, Prod.mk.injEq, Except.ok.injEq] at happly
    rwa [← happly.1, ← happly.2]

end Sample

end CoppiceNames
