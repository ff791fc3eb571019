import CoppiceNames.Protocol.Windows
import CoppiceNames.Reducer.Reachable

/-!
# Retained journals and state deltas

The journals a reducer retains are a run of consecutive, hash-linked blocks that ends at its tip
(`Reducer.Chained`): an accepted block extends the run, and a rollback or a finalization keeps a
suffix of what a fresh replay would have. With the invariant of the records this describes every
reachable state (`reachable_state_invariant`).

A journal is also the source of the delta a block reports. Since it records the value every written
key had before the block, the delta is exact, and the delta of the rollback is the same one read
backwards (`state_delta_exact`).
-/

open Std hiding not_le not_lt

namespace CoppiceNames

section History

variable [Primitives]

/-- Two consecutive journals. -/
def Undo.Linked (first second : Undo) : Prop :=
  U32.checkedAdd first.height 1 = some second.height ∧ second.previousHash = first.hash

/-- The retained journals are linked and end at the tip. -/
structure Reducer.Chained (reducer : Reducer) : Prop where
  below : ∀ undo ∈ reducer.history, ∃ tip, reducer.tipHeight = some tip ∧ undo.height ≤ tip
  last : ∀ undo, reducer.history.getLast? = some undo →
    some undo.height = reducer.tipHeight ∧ undo.hash = reducer.previousHash
  linked : reducer.history.IsChain Undo.Linked

namespace Reducer.Chained

variable {reducer start fresh : Reducer}

theorem of_nil (h : reducer.history = []) : reducer.Chained := by
  refine ⟨fun undo hmem ↦ ?_, fun undo hlast ↦ ?_, ?_⟩
  · rw [h] at hmem
    exact absurd hmem List.not_mem_nil
  · rw [h] at hlast
    exact absurd hlast (by simp)
  · rw [h]
    exact List.isChain_nil

/-- Fewer journals. -/
theorem suffix (h : reducer.Chained) {history : List Undo} (hsuffix : history <:+ reducer.history) :
    Chained { reducer with history := history } where
  below undo hmem := h.below undo (hsuffix.mem hmem)
  last undo hlast := by
    refine h.last undo ?_
    obtain ⟨older, holder⟩ := hsuffix
    rw [← holder, List.getLast?_append, hlast]
    rfl
  linked := h.linked.suffix hsuffix

/-- **One accepted block.** -/
theorem close (h : reducer.Chained) (hinv : reducer.scan.Inv) {block : Block}
    (hheight : some block.height = reducer.nextHeight) (o : OpenBlock) :
    (reducer.closeBlock block o).Chained := by
  -- with a tip, the block lies one above it
  have habove : ∀ tip, reducer.tipHeight = some tip → block.height.val = tip.val + 1 := by
    intro tip htip
    rw [ScanReducer.Inv, show reducer.scan.tipHeight = some tip from htip] at hinv
    rw [show reducer.nextHeight = _ from hinv.1] at hheight
    exact U32.checkedAdd_eq_some_iff.1 hheight.symm
  refine ⟨fun undo hmem ↦ ⟨block.height, rfl, ?_⟩, fun undo hlast ↦ ?_, ?_⟩
  · rcases List.mem_append.1 hmem with hold | hnew
    · obtain ⟨tip, htip, hle⟩ := h.below undo hold
      have hval := habove tip htip
      rw [Fin.le_def] at hle ⊢
      omega
    · rw [List.mem_singleton.1 hnew]
      exact le_rfl
  · rw [show (reducer.closeBlock block o).history = reducer.history ++ _ from rfl,
      List.getLast?_concat, Option.some.injEq] at hlast
    rw [← hlast]
    exact ⟨rfl, rfl⟩
  · refine List.isChain_append.2 ⟨h.linked, List.isChain_singleton _,
      fun first hfirst second hsecond ↦ ?_⟩
    obtain ⟨htip, hhash⟩ := h.last first hfirst
    rw [List.head?_singleton, Option.mem_def, Option.some.injEq] at hsecond
    rw [← hsecond]
    exact ⟨U32.checkedAdd_eq_some_iff.2 (habove _ htip.symm), hhash.symm⟩

/-- **Every replay.** -/
theorem replay (h : start.Chained) (hindexed : start.toRecords.Indexed) (hinv : start.scan.Inv)
    {blocks : List (Block × List ReferencedCommit)} (hreplay : start.replay blocks = some fresh) :
    fresh.Chained := by
  induction blocks using List.reverseRecOn generalizing fresh with
  | nil =>
    rw [← Option.some.inj hreplay]
    exact h
  | append_singleton blocks block ih =>
    rw [replay_append, Option.bind_eq_some_iff] at hreplay
    obtain ⟨previous, hprevious, haccept⟩ := hreplay
    obtain ⟨outcome, happly⟩ := accept_eq_some_iff.1 haccept
    obtain ⟨supplied, -, -, -, -, o, hadmission, -, -, rfl, -⟩ :=
      applyBlockDetailed_eq_ok_iff.1 happly
    exact (ih hprevious).close (inv_replay hindexed hinv hprevious) (admission_eq_ok hadmission).1 o

end Reducer.Chained

theorem FromNew.chained {parameters : Parameters} {parent : Bytes32} {verifier : ProofVerifier}
    {reducer : Reducer} (h : FromNew parameters parent verifier reducer) : reducer.Chained := by
  obtain ⟨start, blocks, hnew, fresh, hreplay, hreducer, hsuffix⟩ := h.survives
  have hempty : start.history = [] := by
    obtain ⟨valid, rfl⟩ := Reducer.new_eq_ok_iff.1 hnew
    rfl
  have hfresh := (Reducer.Chained.of_nil hempty).replay (Reducer.indexed_new hnew)
    (Reducer.inv_new hnew) hreplay
  rw [hreducer]
  exact hfresh.suffix hsuffix

/-- The rules of a reachable state are those it was created with. -/
theorem FromNew.parameters_eq {parameters : Parameters} {parent : Bytes32}
    {verifier : ProofVerifier} {reducer : Reducer}
    (h : FromNew parameters parent verifier reducer) :
    reducer.rules.parameters = parameters := by
  obtain ⟨start, blocks, hnew, hsurvives⟩ := h.survives
  rw [hsurvives.rules]
  obtain ⟨valid, rfl⟩ := Reducer.new_eq_ok_iff.1 hnew
  rfl

/-- **Reachable-state invariant.** -/
theorem reachable_state_invariant {parameters : Parameters} {parent : Bytes32}
    {verifier : ProofVerifier} {reducer : Reducer}
    (h : FromNew parameters parent verifier reducer) :
    (reducer.tipHeight = none → reducer.commits = ∅ ∧ reducer.heads = ∅) ∧
    ∀ t, reducer.tipHeight = some t →
      (∀ reference ∈ reducer.commits, parameters.activationHeight ≤ reference.height ∧
        reference.height ≤ t ∧
        t.val - reference.height.val < parameters.commitTtlBlocks.val) ∧
      (∀ (nameId : NameId) (head : Head), reducer.heads[nameId]? = some head →
        head.name.id = .ok nameId ∧ head.producer.height ≤ t ∧
        (∃ epoch window, parameters.epoch head.producer.height = .ok epoch ∧
          parameters.window nameId epoch = .ok window ∧
          window.contains head.producer.height = true) ∧
        parameters.epoch head.producer.height = .ok head.producerEpoch ∧
        head.expiryHeight.val = head.producer.height.val + parameters.leaseBlocks.val ∧
        (head.terminalHeight = none → t < head.expiryHeight) ∧
        ∀ x, head.terminalHeight = some x → head.producer.height ≤ x ∧ x ≤ t ∧
          x ≤ head.expiryHeight ∧ t.val < x.val + parameters.cooldownBlocks.val) ∧
      (∀ (a b : NameId) (head head' : Head), reducer.heads[a]? = some head →
        reducer.heads[b]? = some head' → head.producer.height = head'.producer.height →
        head.producer.txIndex = head'.producer.txIndex → a = b) ∧
      (∀ undo, reducer.history.getLast? = some undo →
        undo.height = t ∧ undo.hash = reducer.previousHash) ∧
      reducer.history.IsChain fun first second ↦
        second.height.val = first.height.val + 1 ∧ second.previousHash = first.hash := by
  have hinv := h.inv
  have hchained := h.chained
  have hparameters := h.parameters_eq
  rw [ScanReducer.Inv] at hinv
  refine ⟨fun htip ↦ ?_, fun t htip ↦ ?_⟩
  · rw [show reducer.scan.tipHeight = none from htip] at hinv
    exact ⟨congrArg Ledger.commits hinv.2, congrArg Ledger.heads hinv.2⟩
  · rw [show reducer.scan.tipHeight = some t from htip,
      show reducer.scan.rules = reducer.rules from rfl, hparameters] at hinv
    refine ⟨fun reference hmem ↦ ?_, fun nameId head hhead ↦ ?_, hinv.2.producer_inj,
      fun undo hlast ↦ ?_, ?_⟩
    · have hcommit := hinv.2.commit reference hmem
      exact ⟨hcommit.activation_le, hcommit.height_le, hcommit.age_lt⟩
    · have hinv' := hinv.2.head nameId head hhead
      exact ⟨hinv'.name, hinv'.producer_le,
        Parameters.window_of_acceptsOperation hinv'.window, hinv'.epoch,
        Parameters.expiry_eq_ok_iff.1 hinv'.expiry, hinv'.active, hinv'.terminal⟩
    · obtain ⟨hheight, hhash⟩ := hchained.last undo hlast
      rw [htip, Option.some.injEq] at hheight
      exact ⟨hheight, hhash⟩
    · refine hchained.linked.imp fun first second hlinked ↦ ⟨?_, hlinked.2⟩
      exact U32.checkedAdd_eq_some_iff.1 hlinked.1

/-! ### State deltas -/

/-- A change of a head, read backwards. -/
def HeadChange.reverse (change : HeadChange) : HeadChange :=
  ⟨change.nameId, change.current, change.previous⟩

omit [Primitives] in
/-- A change of a COMMIT, read backwards. -/
def CommitChange.reverse (change : CommitChange) : CommitChange :=
  ⟨change.reference, change.current, change.previous⟩

/-- **The delta leads from one reducer to the other.** -/
structure StateDelta.Exact (delta : StateDelta) (before after : Reducer) : Prop where
  fromTip : delta.fromTip = before.tip
  toTip : delta.toTip = after.tip
  /-- Names are distinct and in ascending order. -/
  heads_ascending : OrderedMap.Ascending HeadChange.nameId delta.heads
  commits_ascending : OrderedMap.Ascending CommitChange.reference delta.commits
  head : ∀ change ∈ delta.heads, change.previous = before.heads[change.nameId]? ∧
    change.current = after.heads[change.nameId]?
  commit : ∀ change ∈ delta.commits, change.previous = before.commits[change.reference]? ∧
    change.current = after.commits[change.reference]?
  /-- What is not listed has not changed. -/
  head_unchanged : ∀ nameId : NameId, nameId ∉ delta.heads.map HeadChange.nameId →
    after.heads[nameId]? = before.heads[nameId]?
  commit_unchanged : ∀ reference : CommitRef,
    reference ∉ delta.commits.map CommitChange.reference →
    after.commits[reference]? = before.commits[reference]?

namespace Reducer

variable {reducer : Reducer}

/-- The delta of a block is exact. -/
theorem exact_deltaFromUndo {C : Set CommitRef} {H : Set NameId} {block : Block} {o : OpenBlock}
    (h : Tracks reducer.ledger C H o) :
    StateDelta.Exact ((reducer.closeBlock block o).deltaFromUndo reducer.tip
      (reducer.closeBlock block o).tip o.journal) reducer (reducer.closeBlock block o) := by
  refine ⟨rfl, rfl, ?_, ?_, fun change hmem ↦ ?_, fun change hmem ↦ ?_, fun nameId hnot ↦ ?_,
    fun reference hnot ↦ ?_⟩
  · rw [OrderedMap.Ascending, deltaFromUndo, List.pairwise_map]
    exact OrderedMap.ascending_toList o.journal.heads
  · rw [OrderedMap.Ascending, deltaFromUndo, List.pairwise_map]
    exact OrderedMap.ascending_toList o.journal.commits
  · rw [deltaFromUndo, List.mem_map] at hmem
    obtain ⟨⟨nameId, recorded⟩, hentry, rfl⟩ := hmem
    exact ⟨h.heads.eq_base (OrderedMap.getElem?_eq_some_iff_mem_toList.2 hentry), rfl⟩
  · rw [deltaFromUndo, List.mem_map] at hmem
    obtain ⟨⟨reference, recorded⟩, hentry, rfl⟩ := hmem
    exact ⟨h.commits.eq_base (OrderedMap.getElem?_eq_some_iff_mem_toList.2 hentry), rfl⟩
  · refine h.heads.unchanged ?_
    rcases hrecorded : o.journal.heads[nameId]? with - | recorded
    · rfl
    · have hentry := OrderedMap.getElem?_eq_some_iff_mem_toList.1 hrecorded
      exact absurd (List.mem_map.2 ⟨_, List.mem_map.2 ⟨_, hentry, rfl⟩, rfl⟩) hnot
  · refine h.commits.unchanged ?_
    rcases hrecorded : o.journal.commits[reference]? with - | recorded
    · rfl
    · have hentry := OrderedMap.getElem?_eq_some_iff_mem_toList.1 hrecorded
      exact absurd (List.mem_map.2 ⟨_, List.mem_map.2 ⟨_, hentry, rfl⟩, rfl⟩) hnot

/-- The delta of a rollback lists the journaled keys. -/
theorem rollbackTipDetailed_delta {expectedHash : Bytes32} {delta : StateDelta}
    {reverted : Reducer} {undo : Undo} (hundo : reducer.history.getLast? = some undo)
    (h : reducer.rollbackTipDetailed expectedHash = (.ok delta, reverted)) :
    delta =
      { fromTip := reducer.tip
        toTip := reverted.tip
        commits := undo.commits.keys.map fun reference ↦
          ⟨reference, reducer.commits[reference]?, reverted.commits[reference]?⟩
        heads := undo.heads.keys.map fun nameId ↦
          ⟨nameId, reducer.heads[nameId]?, reverted.heads[nameId]?⟩ } := by
  rw [rollbackTipDetailed, hundo] at h
  dsimp only at h
  split at h
  · exact absurd (congrArg Prod.fst h) (by simp)
  · rw [Prod.mk.injEq, Except.ok.injEq] at h
    obtain ⟨hdelta, hreverted⟩ := h
    rw [← hdelta, ← hreverted]

/-- Rolling a block back reports its delta, read backwards. -/
theorem rollback_delta (hindexed : reducer.toRecords.Indexed) {C : Set CommitRef}
    {H : Set NameId} {block : Block} {o : OpenBlock} (h : Tracks reducer.ledger C H o) :
    ∃ back, (reducer.closeBlock block o).rollbackTipDetailed block.hash = (.ok back, reducer) ∧
      back.fromTip = (reducer.closeBlock block o).tip ∧ back.toTip = reducer.tip ∧
      back.heads = ((reducer.closeBlock block o).deltaFromUndo reducer.tip
        (reducer.closeBlock block o).tip o.journal).heads.map HeadChange.reverse ∧
      back.commits = ((reducer.closeBlock block o).deltaFromUndo reducer.tip
        (reducer.closeBlock block o).tip o.journal).commits.map CommitChange.reverse := by
  obtain ⟨back, hback⟩ : ∃ back, (reducer.closeBlock block o).rollbackTipDetailed block.hash =
      (.ok back, reducer) := rollbackTipDetailed_of_close hindexed h reducer.history
  have hlast : (reducer.closeBlock block o).history.getLast? =
      some { reducer.newUndo block.height block.hash with toJournal := o.journal } :=
    List.getLast?_concat
  have hdelta := rollbackTipDetailed_delta hlast hback
  refine ⟨back, hback, by rw [hdelta], by rw [hdelta], ?_, ?_⟩
  · rw [hdelta, deltaFromUndo]
    dsimp only
    rw [← ExtTreeMap.map_fst_toList_eq_keys, List.map_map, List.map_map]
    refine List.map_congr_left fun entry hentry ↦ ?_
    have hrecorded := h.heads.eq_base (OrderedMap.getElem?_eq_some_iff_mem_toList.2 hentry)
    rw [Function.comp_apply, Function.comp_apply, HeadChange.reverse, hrecorded]
    rfl
  · rw [hdelta, deltaFromUndo]
    dsimp only
    rw [← ExtTreeMap.map_fst_toList_eq_keys, List.map_map, List.map_map]
    refine List.map_congr_left fun entry hentry ↦ ?_
    have hrecorded := h.commits.eq_base (OrderedMap.getElem?_eq_some_iff_mem_toList.2 hentry)
    rw [Function.comp_apply, Function.comp_apply, CommitChange.reverse, hrecorded]
    rfl

end Reducer

/-- **State deltas are exact and invertible.** The delta of an accepted block lists, for distinct
keys in ascending order, the values before and after the block, and nothing else changed; rolling
the block back reports the same delta read backwards. -/
theorem state_delta_exact {reducer next : Reducer} (hreached : Reached reducer) {block : Block}
    {evidence : List ReferencedCommit} {outcome : BlockOutcome}
    (happly : reducer.applyBlockDetailed block evidence = some (.ok outcome, next)) :
    outcome.stateDelta.Exact reducer next ∧
    ∃ back, next.rollbackTipDetailed block.hash = (.ok back, reducer) ∧
      back.fromTip = outcome.stateDelta.toTip ∧ back.toTip = outcome.stateDelta.fromTip ∧
      back.heads = outcome.stateDelta.heads.map HeadChange.reverse ∧
      back.commits = outcome.stateDelta.commits.map CommitChange.reverse := by
  rcases Reducer.applyBlockDetailed_spec hreached.indexed block evidence with
    ⟨e, -, hfailed, -⟩ | ⟨outcome', o, s, hok, htracks, -, -, -, -, -, hdelta⟩
  · rw [hfailed, Option.some.injEq, Prod.mk.injEq] at happly
    exact absurd happly.1 (by simp)
  · rw [hok, Option.some.injEq, Prod.mk.injEq, Except.ok.injEq] at happly
    obtain ⟨rfl, rfl⟩ := happly
    rw [hdelta]
    exact ⟨Reducer.exact_deltaFromUndo htracks, Reducer.rollback_delta hreached.indexed htracks⟩

end History

namespace Sample

/-- After its REVEAL `alice` has a head whose lease runs to height five. -/
theorem reachable_state_invariant_alice : ∃ (reducer : Reducer) (nameId : NameId) (head : Head),
    FromNew parameters parent verifier reducer ∧ reducer.tipHeight = some 1 ∧
    reducer.heads[nameId]? = some head ∧ head.name.id = .ok nameId ∧
    head.expiryHeight.val = head.producer.height.val + parameters.leaseBlocks.val := by
  have hrun : ((start.run [.applyBlock block0 [], .applyBlock block1 []]).map fun result ↦
      (result.2.tipHeight, result.2.heads.toList.length)) = some (some 1, 1) := by decide +kernel
  rw [Option.map_eq_some_iff] at hrun
  obtain ⟨⟨replies, reducer⟩, hreducer, hresult⟩ := hrun
  rw [Prod.mk.injEq, List.length_eq_one_iff] at hresult
  obtain ⟨htip, ⟨nameId, head⟩, hlist⟩ := hresult
  have hhead : reducer.heads[nameId]? = some head := by
    rw [OrderedMap.getElem?_eq_some_iff_mem_toList, hlist]
    exact List.mem_singleton_self _
  have hreached : FromNew parameters parent verifier reducer :=
    ⟨start, _, replies, new_eq_start, hreducer⟩
  obtain ⟨-, hheads, -⟩ := (reachable_state_invariant hreached).2 1 htip
  obtain ⟨hname, -, -, -, hexpiry, -⟩ := hheads nameId head hhead
  exact ⟨reducer, nameId, head, hreached, htip, hhead, hname, hexpiry⟩

/-- Block two spends the head of `alice` and lets the COMMIT behind it lapse. -/
theorem state_delta_exact_block2 : ∃ replies reducer outcome next,
    start.run [.applyBlock block0 [], .applyBlock block1 []] = some (replies, reducer) ∧
    reducer.applyBlockDetailed block2 [] = some (.ok outcome, next) ∧
    outcome.stateDelta.heads.length = 1 ∧ outcome.stateDelta.commits.length = 1 ∧
    outcome.stateDelta.Exact reducer next ∧
    ∃ back, next.rollbackTipDetailed block2.hash = (.ok back, reducer) ∧
      back.fromTip = outcome.stateDelta.toTip ∧ back.toTip = outcome.stateDelta.fromTip ∧
      back.heads = outcome.stateDelta.heads.map HeadChange.reverse ∧
      back.commits = outcome.stateDelta.commits.map CommitChange.reverse := by
  have hevaluated : (start.run [.applyBlock block0 [], .applyBlock block1 []]).bind (fun result ↦
      (result.2.applyBlockDetailed block2 []).map fun applied ↦
        applied.1.toOption.map fun outcome ↦
          (outcome.stateDelta.heads.length, outcome.stateDelta.commits.length)) =
      some (some (1, 1)) := by
    decide +kernel
  simp only [Option.bind_eq_some_iff, Option.map_eq_some_iff, Prod.mk.injEq,
    Except.toOption_eq_some_iff] at hevaluated
  obtain ⟨⟨replies, reducer⟩, hrun, ⟨result, next⟩, happly, outcome, rfl, hheads, hcommits⟩ :=
    hevaluated
  exact ⟨replies, reducer, outcome, next, hrun, happly, hheads, hcommits,
    state_delta_exact ((Reached.new new_eq_start).run hrun) happly⟩

end Sample

end CoppiceNames
