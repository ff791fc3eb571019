import CoppiceNames.Resolver.Filtered
import CoppiceNames.Store.Retention

/-!
# The store refines the reducer

A store that is fed the deltas of a reducer, and rolled back when the reducer rolls back, has the
records of the reducer in its tables. Every check of `apply_delta` passes on a delta of the reducer:
the delta lists distinct keys with the values before and after the block, and those values are valid
at their tips.

The rows of the store's own journal are those of the reducer's journals (`Store.Mirrors`), for all
blocks that the store has not finalized; this is what a rollback of the store needs. The reducer may
have finalized more or less than the store, so the simulation is with the replay of the surviving
blocks, which retains every journal.
-/

open Std hiding not_le not_lt

namespace CoppiceNames

section Refinement

variable [Primitives] {B : Type} {serde : Serde B HeadRecord}

/-! ### The checks of a delta -/

/-- **A valid head passes the check of the store.** -/
theorem validateHead_store {parameters : Parameters} {network : Network} {tip : U32} {bound : ℕ}
    {nameId : NameId} {head : Head} (h : HeadInv parameters tip bound nameId head)
    (hua : head.ua.CanonicalFor network) :
    validateHead nameId head.store network (some tip) = .ok () := by
  have hparses := head.parses_store hua
  have hexpiry : head.expiryHeight.val = head.producer.height.val + parameters.leaseBlocks.val :=
    Parameters.expiry_eq_ok_iff.1 h.expiry
  rw [validateHead, hparses.name]
  dsimp only
  rw [h.name, hparses.ua, hparses.commitment, hparses.futureNf]
  refine ensure_eq_ok_iff.2 ⟨rfl, ?_⟩
  rintro (hearly | hterminal | hlate)
  · have hlt : head.expiryHeight.val < head.producer.height.val := hearly
    omega
  · obtain ⟨x, hx, hlt⟩ := (Option.any_eq_true _ _).1 hterminal
    exact absurd (h.terminal x hx).1 (not_le.2 (of_decide_eq_true hlt))
  · rw [Option.any_some, decide_eq_true_eq] at hlate
    rcases hlate with hproducer | hterminal
    · exact absurd h.producer_le (not_le.2 hproducer)
    · obtain ⟨x, hx, hgt⟩ := (Option.any_eq_true _ _).1 hterminal
      exact absurd (h.terminal x hx).2.1 (not_le.2 (of_decide_eq_true hgt))

/-- The records of a restorable reducer pass the check at its tip. -/
theorem Restorable.validateRecord {network : Network} {H : Set NameId} {reducer : Reducer}
    (h : Restorable network H reducer) (nameId : NameId) :
    validateRecord nameId (reducer.heads[nameId]?.map Head.store) network reducer.tipHeight =
      .ok () := by
  rcases hhead : reducer.heads[nameId]? with - | head
  · rfl
  · obtain ⟨tip, htip, hinv, hua⟩ := h.head_inv hhead
    rw [htip]
    exact validateHead_store hinv hua

theorem Reducer.tip_map_height (reducer : Reducer) :
    reducer.tip.map ReducerTip.height = reducer.tipHeight := by
  rw [tip, Option.map_map]
  exact Option.map_id'

theorem Reducer.tip_map_hash (reducer : Reducer) :
    reducer.tip.map ReducerTip.hash = reducer.tipHeight.map fun _ ↦ reducer.previousHash := by
  rw [tip, Option.map_map]
  rfl

/-- Where the next block lies. -/
theorem Restorable.next_height {network : Network} {H : Set NameId} {reducer : Reducer}
    (h : Restorable network H reducer) {height : U32} (hheight : some height = reducer.nextHeight) :
    (∀ t, reducer.tip = some t → height.val = t.height.val + 1) ∧
      (reducer.tip = none → height = reducer.rules.parameters.activationHeight) := by
  have hinv := h.inv
  rw [ScanReducer.Inv] at hinv
  split at hinv
  · rename_i htip
    have htip' : reducer.tipHeight = none := htip
    rw [show reducer.nextHeight = _ from hinv.1, Option.some.injEq] at hheight
    refine ⟨fun t ht ↦ ?_, fun _ ↦ hheight⟩
    rw [Reducer.tip, htip'] at ht
    exact absurd ht (by simp)
  · rename_i tip htip
    have htip' : reducer.tipHeight = some tip := htip
    rw [show reducer.nextHeight = _ from hinv.1] at hheight
    refine ⟨fun t ht ↦ ?_, fun hnone ↦ ?_⟩
    · rw [Reducer.tip, htip', Option.map_some, Option.some.injEq] at ht
      rw [← ht]
      exact U32.checkedAdd_eq_some_iff.1 hheight.symm
    · rw [Reducer.tip, htip'] at hnone
      exact absurd hnone (by simp)

/-! ### The simulation -/

/-- **The store has the records of the reducer**, and the rows of its journal are those of the
reducer's journals. -/
structure Store.Mirrors (serde : Serde B HeadRecord) (reducer : Reducer) (store : Store B) :
    Prop where
  journaled : Store.Journaled serde reducer.rules.parameters.activationHeight reducer.tip store
  heads : ∀ nameId : NameId, store.heads[nameId]? = reducer.heads[nameId]?.map Head.store
  commits : ∀ reference : CommitRef,
    store.pendingCommits[reference]? = reducer.commits[reference]?.map Commitment.bytes
  previous : ∀ undo ∈ reducer.history, ∀ row, store.rollbackBlocks[undo.height]? = some row →
    row.previousTipHeight = undo.previousTipHeight ∧
      row.previousTipHash = undo.previousTipHeight.map fun _ ↦ undo.previousHash
  headRows : ∀ undo ∈ reducer.history, undo.height ∈ store.rollbackBlocks → ∀ nameId : NameId,
    ((store.rollbackHeads.rows undo.height)[nameId]?.map fun recorded ↦
      recorded.bind serde.fromSlice) = undo.heads[nameId]?.map (Option.map Head.store)
  commitRows : ∀ undo ∈ reducer.history, undo.height ∈ store.rollbackBlocks →
    ∀ reference : CommitRef, (store.rollbackCommits.rows undo.height)[reference]? =
      undo.commits[reference]?.map (Option.map Commitment.bytes)
  commitOrphans : ∀ height, height ∉ store.rollbackBlocks → store.rollbackCommits.rows height = ∅

namespace Store.Mirrors

variable {reducer next : Reducer} {store : Store B}

/-- A tip is determined by its columns. -/
theorem tip_ext {tip : Option ReducerTip}
    (hheight : tip.map ReducerTip.height = reducer.tipHeight)
    (hhash : tip.map ReducerTip.hash = reducer.tipHeight.map fun _ ↦ reducer.previousHash) :
    tip = reducer.tip := by
  rw [Reducer.tip, ← hheight]
  rw [← hheight] at hhash
  rcases tip with - | tip
  · rfl
  · rw [Option.map_some, Option.map_some, Option.map_some, Option.some.injEq] at hhash
    rw [Option.map_some, Option.map_some, ← hhash]

omit [Primitives] in
/-- Recorded and current values, both mapped. -/
theorem map_getD {K V W : Type} [Ord K] [TransOrd K] {journal : JournalOf K V}
    {base m : OrderedMap K V} (h : OrderedMap.Journals journal base m) (k : K) (f : V → W) :
    (journal[k]?.map (Option.map f)).getD (m[k]?.map f) = base[k]?.map f := by
  rw [← h.getD k]
  rcases journal[k]? with - | recorded
  · rfl
  · rfl

theorem new {parameters : Parameters} {parent : Bytes32} {verifier : ProofVerifier}
    (hnew : Reducer.new parameters parent verifier = .ok reducer) (identity : StoreIdentity) :
    Mirrors serde reducer (Store.new identity) := by
  obtain ⟨valid, rfl⟩ := Reducer.new_eq_ok_iff.1 hnew
  refine ⟨.new identity, fun nameId ↦ ?_, fun reference ↦ ?_,
    fun undo hundo ↦ absurd hundo List.not_mem_nil, fun undo hundo ↦ absurd hundo List.not_mem_nil,
    fun undo hundo ↦ absurd hundo List.not_mem_nil, fun height _ ↦ ChildTable.rows_empty height⟩
  · simp [Store.new, Records.empty]
  · simp [Store.new, Records.empty]

/-- **A finalization of the store.** -/
theorem finalizeThrough (h : Mirrors serde reducer store) {height : U32} {final : Store B}
    (hfinalize : store.finalizeThrough height = .ok final) : Mirrors serde reducer final := by
  have hjournaled := (h.journaled.finalizeThrough hfinalize).1
  obtain ⟨t, -, -, -, rfl⟩ := Store.finalizeThrough_eq_ok_iff.1 hfinalize
  refine ⟨hjournaled, h.heads, h.commits, fun undo hundo row hrow ↦ ?_,
    fun undo hundo hmem nameId ↦ ?_, fun undo hundo hmem reference ↦ ?_, fun later hlater ↦ ?_⟩
  · exact h.previous undo hundo row (Journaled.getElem?_kept.1 hrow).1
  · obtain ⟨hold, hkept⟩ := Journaled.mem_kept.1 hmem
    dsimp only [Store.keepRollbackBlocks]
    rw [ChildTable.rows_cascade, if_pos hkept]
    exact h.headRows undo hundo hold nameId
  · obtain ⟨hold, hkept⟩ := Journaled.mem_kept.1 hmem
    dsimp only [Store.keepRollbackBlocks]
    rw [ChildTable.rows_cascade, if_pos hkept]
    exact h.commitRows undo hundo hold reference
  · dsimp only [Store.keepRollbackBlocks]
    rw [ChildTable.rows_cascade]
    split
    · rename_i hkept
      exact h.commitOrphans later fun hmem ↦ hlater (Journaled.mem_kept.2 ⟨hmem, hkept⟩)
    · rfl

/-- **A rollback.** The store's journal has a row for the block on top. -/
theorem rollbackTip {block : Block} {o : OpenBlock} {C : Set CommitRef} {H : Set NameId}
    (htracks : Tracks reducer.ledger C H o)
    (h : Mirrors serde (reducer.closeBlock block o) store)
    (hmem : block.height ∈ store.rollbackBlocks) :
    ∃ restored, store.rollbackTip serde block.hash = .ok (reducer.tip, restored) ∧
      Mirrors serde reducer restored ∧ restored.identity = store.identity := by
  have htip : (reducer.closeBlock block o).tip = some ⟨block.height, block.hash⟩ := rfl
  have hjournaled := h.journaled
  rw [htip] at hjournaled
  obtain ⟨previous, row, hrow, hheight, hhash, hroll, hrestored⟩ :=
    hjournaled.exists_rollbackTip hmem
  -- the undo of the block is the newest journal
  generalize hundo :
    ({ reducer.newUndo block.height block.hash with toJournal := o.journal } : Undo) = undo
  have hnewest : undo ∈ (reducer.closeBlock block o).history := by
    rw [← hundo]
    exact List.mem_append_right _ List.mem_cons_self
  have hheight' : undo.height = block.height := by rw [← hundo]; rfl
  have hprevious : previous = reducer.tip := by
    obtain ⟨hsameHeight, hsameHash⟩ := h.previous undo hnewest row (hheight' ▸ hrow)
    rw [hheight, ← hundo] at hsameHeight
    rw [hhash, ← hundo] at hsameHash
    exact tip_ext hsameHeight hsameHash
  subst hprevious
  refine ⟨_, hroll, ⟨hrestored, fun nameId ↦ ?_, fun reference ↦ ?_, fun older hold row' hrow' ↦ ?_,
    fun older hold hmem' nameId ↦ ?_, fun older hold hmem' reference ↦ ?_, fun later hlater ↦ ?_⟩,
      rfl⟩
  · -- the journaled heads are put back
    dsimp only [Store.restored]
    refine (OrderedMap.getElem?_putAll_map_toList _ _
      (fun recorded : Option B ↦ recorded.bind serde.fromSlice) nameId).trans ?_
    rw [h.heads, ← hheight', h.headRows undo hnewest (hheight' ▸ hmem), ← hundo]
    exact map_getD htracks.heads nameId Head.store
  · dsimp only [Store.restored]
    rw [OrderedMap.getElem?_putAll_toList, h.commits, ← hheight',
      h.commitRows undo hnewest (hheight' ▸ hmem), ← hundo]
    exact map_getD htracks.commits reference Commitment.bytes
  · exact h.previous older (List.mem_append_left _ hold) row' (Journaled.getElem?_kept.1 hrow').1
  · obtain ⟨hmem', hkept⟩ := Journaled.mem_kept.1 hmem'
    dsimp only [Store.restored]
    rw [ChildTable.rows_cascade, if_pos hkept]
    exact h.headRows older (List.mem_append_left _ hold) hmem' nameId
  · obtain ⟨hmem', hkept⟩ := Journaled.mem_kept.1 hmem'
    dsimp only [Store.restored]
    rw [ChildTable.rows_cascade, if_pos hkept]
    exact h.commitRows older (List.mem_append_left _ hold) hmem' reference
  · dsimp only [Store.restored]
    rw [ChildTable.rows_cascade]
    split
    · rename_i hkept
      exact h.commitOrphans later fun hmem ↦ hlater (Journaled.mem_kept.2 ⟨hmem, hkept⟩)
    · rfl

/-- The tables after the delta of a block. -/
structure Applied (serde : Serde B HeadRecord) (reducer : Reducer) (block : Block) (o : OpenBlock)
    (store applied : Store B) : Prop where
  identity : applied.identity = store.identity
  rollbackBlocks : applied.rollbackBlocks = store.rollbackBlocks.insert block.height
    ⟨block.hash, reducer.tip.map ReducerTip.height, reducer.tip.map ReducerTip.hash⟩
  heads : ∀ nameId : NameId, applied.heads[nameId]? = o.records.heads[nameId]?.map Head.store
  commits : ∀ reference : CommitRef,
    applied.pendingCommits[reference]? = o.records.commits[reference]?.map Commitment.bytes
  headRows : ∀ nameId : NameId, ((applied.rollbackHeads.rows block.height)[nameId]?.map
    fun recorded ↦ recorded.bind serde.fromSlice) =
      o.journal.heads[nameId]?.map (Option.map Head.store)
  commitRows : ∀ reference : CommitRef, (applied.rollbackCommits.rows block.height)[reference]? =
    o.journal.commits[reference]?.map (Option.map Commitment.bytes)
  headSiblings : ∀ height, height ≠ block.height →
    applied.rollbackHeads.rows height = store.rollbackHeads.rows height
  commitSiblings : ∀ height, height ≠ block.height →
    applied.rollbackCommits.rows height = store.rollbackCommits.rows height

omit [Primitives] in
/-- A written key has its new value, and another one has not changed. -/
theorem map_current {K V W : Type} [Ord K] [TransOrd K] {journal : JournalOf K V}
    {base m : OrderedMap K V} (h : OrderedMap.Journals journal base m) (k : K) (f : V → W) :
    (journal[k]?.map fun _ ↦ m[k]?.map f).getD (base[k]?.map f) = m[k]?.map f := by
  rcases hk : journal[k]? with - | recorded
  · rw [h.unchanged hk]
    rfl
  · rfl

/-- **Every check of the delta passes.** -/
theorem exists_applied (h : Mirrors serde reducer store) (hserde : serde.RoundTrips)
    {H : Set NameId} (hrestorable : Restorable store.identity.network H reducer)
    (hcoverage : ∀ expected, store.identity.coverage = .exact expected → H ⊆ {expected})
    {block : Block} {o : OpenBlock} {C : Set CommitRef} (htracks : Tracks reducer.ledger C H o)
    (hnext : Restorable store.identity.network H (reducer.closeBlock block o))
    (hheight : some block.height = reducer.nextHeight)
    (hhash : ∀ tip, reducer.tip = some tip → tip.hash ≠ block.hash) :
    ∃ applied, store.applyDelta serde ((reducer.closeBlock block o).deltaFromUndo reducer.tip
        (reducer.closeBlock block o).tip o.journal) = .ok applied ∧
      Applied serde reducer block o store applied := by
  obtain ⟨habove, -⟩ := hrestorable.next_height hheight
  have hnew : block.height ∉ store.rollbackBlocks := by
    intro hmem
    obtain ⟨t, ht, hle⟩ := h.journaled.below block.height hmem
    have hval := habove t ht
    rw [Fin.le_def] at hle
    omega
  let inserted : Store B := { store with
    rollbackBlocks := store.rollbackBlocks.insert block.height
      ⟨block.hash, reducer.tip.map ReducerTip.height, reducer.tip.map ReducerTip.hash⟩ }
  have hparent : block.height ∈ inserted.rollbackBlocks := ExtTreeMap.mem_insert_self
  -- the two loops
  have hheadExpected : ∀ nameId previous, o.journal.heads[nameId]? = some previous →
      store.heads[nameId]? = (headWrite serde ⟨nameId, previous,
        (reducer.closeBlock block o).heads[nameId]?⟩).expected := by
    intro nameId previous hprevious
    rw [h.heads, headWrite, htracks.heads.eq_base hprevious]
    rfl
  obtain ⟨heads, headRows, hheads, hheadTable, hheadRows, hheadSiblings⟩ :=
    JournaledWrite.exists_performJournal o.journal.heads hheadExpected (fun _ _ ↦ rfl)
      (h.journaled.orphans block.height hnew)
  have hcommitExpected : ∀ reference previous, o.journal.commits[reference]? = some previous →
      store.pendingCommits[reference]? = (commitWrite ⟨reference, previous,
        (reducer.closeBlock block o).commits[reference]?⟩).expected := by
    intro reference previous hprevious
    rw [h.commits, commitWrite, htracks.commits.eq_base hprevious]
    rfl
  obtain ⟨commits, commitRows, hcommits, hcommitTable, hcommitRows, hcommitSiblings⟩ :=
    JournaledWrite.exists_performJournal o.journal.commits hcommitExpected (fun _ _ ↦ rfl)
      (h.commitOrphans block.height hnew)
  refine ⟨_, Store.applyDelta_eq_ok_iff.2 ⟨h.journaled.readTip, ⟨block.height, block.hash⟩, rfl,
    fun t ht ↦ ⟨U32.checkedAdd_eq_some_iff.2 (habove t ht), hhash t ht⟩, ?_, hnew,
    { inserted with heads := heads, rollbackHeads := headRows },
    { inserted with
      heads := heads, rollbackHeads := headRows
      pendingCommits := commits, rollbackCommits := commitRows }, ?_, ?_, rfl⟩,
    ⟨rfl, rfl, fun nameId ↦ ?_, fun reference ↦ ?_, fun nameId ↦ ?_, fun reference ↦ ?_,
      hheadSiblings, hcommitSiblings⟩⟩
  · -- the names of the delta are covered
    rcases hkind : store.identity.coverage with - | expected | -
    · rfl
    · rw [Coverage.admits, List.all_eq_true]
      intro change hchange
      obtain ⟨entry, hentry, rfl⟩ := List.mem_map.1 hchange
      have hmem := htracks.head_mem entry.1 (OrderedMap.mem_of_getElem?_eq_some
        (OrderedMap.getElem?_eq_some_iff_mem_toList.2 hentry))
      exact decide_eq_true (hcoverage expected hkind hmem)
    · rfl
  · refine (foldlM_applyHeadChange_eq_ok_iff hserde hparent).2
      ⟨fun change hchange ↦ ?_, heads, headRows, ?_, rfl⟩
    · obtain ⟨entry, hentry, rfl⟩ := List.mem_map.1 hchange
      have hbase := htracks.heads.eq_base (OrderedMap.getElem?_eq_some_iff_mem_toList.2 hentry)
      refine ⟨?_, hnext.validateRecord entry.1⟩
      dsimp only
      rw [hbase, show (Reducer.deltaFromUndo _ reducer.tip _ _).fromTip.map ReducerTip.height =
        reducer.tipHeight from Reducer.tip_map_height reducer]
      exact hrestorable.validateRecord entry.1
    · rw [Reducer.deltaFromUndo, List.map_map]
      exact hheads
  · refine (foldlM_applyCommitChange_eq_ok_iff hparent).2 ⟨commits, commitRows, ?_, rfl⟩
    rw [Reducer.deltaFromUndo, List.map_map]
    exact hcommits
  · exact (hheadTable nameId).trans
      ((congrArg _ (h.heads nameId)).trans (map_current htracks.heads nameId Head.store))
  · exact (hcommitTable reference).trans
      ((congrArg _ (h.commits reference)).trans (map_current htracks.commits reference _))
  · rw [show (Store.writeTip _ _).rollbackHeads.rows block.height = headRows.rows block.height
      from rfl, hheadRows, Option.map_map]
    exact congrArg (fun f ↦ Option.map f o.journal.heads[nameId]?)
      (funext fun previous ↦ bind_recorded hserde previous)
  · exact hcommitRows reference

/-- **An accepted block.** Its delta is applied. -/
theorem apply (h : Mirrors serde reducer store) (hserde : serde.RoundTrips) {H : Set NameId}
    (hrestorable : Restorable store.identity.network H reducer)
    (hcoverage : ∀ expected, store.identity.coverage = .exact expected → H ⊆ {expected})
    {block : Block} {evidence : List ReferencedCommit} {outcome : BlockOutcome}
    (hcanonical : block.CanonicalFor store.identity.network) (hreveals : block.Reveals H)
    (hhash : ∀ tip, reducer.tip = some tip → tip.hash ≠ block.hash)
    (happly : reducer.applyBlockDetailed block evidence = some (.ok outcome, next)) :
    ∃ applied, store.applyDelta serde outcome.stateDelta = .ok applied ∧
      Mirrors serde next applied ∧ applied.identity = store.identity := by
  obtain ⟨hnext, o, rfl, htracks, hdelta⟩ := hrestorable.apply hcanonical hreveals happly
  obtain ⟨supplied, _, _, _, _, _, hadmission, -⟩ := Reducer.applyBlockDetailed_eq_ok_iff.1 happly
  have hheight := (admission_eq_ok hadmission).1
  obtain ⟨habove, hfirst⟩ := hrestorable.next_height hheight
  obtain ⟨applied, happlied, htables⟩ := h.exists_applied hserde hrestorable hcoverage htracks hnext
    hheight hhash
  rw [← hdelta] at happlied
  -- older journals belong to lower heights
  have hbefore : ∀ undo ∈ reducer.history, undo.height ≠ block.height := by
    intro undo hundo heq
    obtain ⟨tip, htip, hle⟩ := hrestorable.below undo hundo
    have hval := habove ⟨tip, reducer.previousHash⟩ (by rw [Reducer.tip, htip]; rfl)
    rw [heq, Fin.le_def] at hle
    dsimp only at hval
    omega
  have hmemOld : ∀ undo ∈ reducer.history, undo.height ∈ applied.rollbackBlocks →
      undo.height ∈ store.rollbackBlocks := by
    intro undo hundo hmem
    rw [htables.rollbackBlocks, ExtTreeMap.mem_insert, LawfulEqCmp.compare_eq_iff_eq] at hmem
    exact hmem.resolve_left (hbefore undo hundo).symm
  refine ⟨applied, happlied, ⟨?_, htables.heads, htables.commits, fun undo hundo row hrow ↦ ?_,
    fun undo hundo hmem nameId ↦ ?_, fun undo hundo hmem reference ↦ ?_, fun height hout ↦ ?_⟩,
    htables.identity⟩
  · have hstart : outcome.stateDelta.fromTip = none → ∀ t, outcome.stateDelta.toTip = some t →
        t.height = reducer.rules.parameters.activationHeight := by
      intro hnone t ht
      rw [hdelta] at hnone ht
      rw [← Option.some.inj ht]
      exact hfirst hnone
    have hjournaled := (h.journaled.applyDelta hserde happlied hstart).1
    rw [hdelta] at hjournaled
    exact hjournaled
  · rw [htables.rollbackBlocks] at hrow
    rcases List.mem_append.1 hundo with hold | hnewest
    · rw [OrderedMap.getElem?_insert_of_ne (hbefore undo hold).symm] at hrow
      exact h.previous undo hold row hrow
    · have hheight' : undo.height = block.height := by
        rw [List.mem_singleton.1 hnewest]
        rfl
      rw [hheight', ExtTreeMap.getElem?_insert_self, Option.some.injEq] at hrow
      rw [← hrow, List.mem_singleton.1 hnewest]
      exact ⟨reducer.tip_map_height, reducer.tip_map_hash⟩
  · rcases List.mem_append.1 hundo with hold | hnewest
    · rw [htables.headSiblings _ (hbefore undo hold)]
      exact h.headRows undo hold (hmemOld undo hold hmem) nameId
    · rw [List.mem_singleton.1 hnewest]
      exact htables.headRows nameId
  · rcases List.mem_append.1 hundo with hold | hnewest
    · rw [htables.commitSiblings _ (hbefore undo hold)]
      exact h.commitRows undo hold (hmemOld undo hold hmem) reference
    · rw [List.mem_singleton.1 hnewest]
      exact htables.commitRows reference
  · rw [htables.rollbackBlocks, ExtTreeMap.mem_insert,
      LawfulEqCmp.compare_eq_iff_eq, not_or] at hout
    rw [htables.commitSiblings height (Ne.symm hout.1)]
    exact h.commitOrphans height hout.2

end Store.Mirrors

/-! ### A reducer and its store -/

/-- What the store is asked to do after a call of the reducer. -/
def storeCall : Call → Reply → Option StoreCall
  | .applyBlock _ _, .applied (.ok outcome) => some (.applyDelta outcome.stateDelta)
  | .rollbackTip expectedHash, .rolledBack (.ok _) => some (.rollbackTip expectedHash)
  | _, _ => none

theorem Reducer.history_new {parameters : Parameters} {parent : Bytes32} {verifier : ProofVerifier}
    {start : Reducer} (hnew : Reducer.new parameters parent verifier = .ok start) :
    start.history = [] := by
  obtain ⟨valid, rfl⟩ := Reducer.new_eq_ok_iff.1 hnew
  rfl

/-- **The store follows the reducer**: it mirrors the replay of the surviving blocks. -/
structure Follows (serde : Serde B HeadRecord) (identity : StoreIdentity) (H : Set NameId)
    (start : Reducer) (blocks : List (Block × List ReferencedCommit)) (reducer : Reducer)
    (store : Store B) : Prop where
  survives : Survives start blocks reducer
  identity_eq : store.identity = identity
  admitted : ∀ block ∈ blocks, block.1.CanonicalFor identity.network ∧ block.1.Reveals H
  mirrors : ∀ fresh, start.replay blocks = some fresh → Store.Mirrors serde fresh store

namespace Follows

variable {identity : StoreIdentity} {H : Set NameId} {parameters : Parameters} {parent : Bytes32}
  {verifier : ProofVerifier} {start reducer next : Reducer}
  {blocks : List (Block × List ReferencedCommit)} {store : Store B}

/-- The tables are those of the reducer. -/
theorem tables (h : Follows serde identity H start blocks reducer store) :
    (∀ nameId : NameId, store.heads[nameId]? = reducer.heads[nameId]?.map Head.store) ∧
      (∀ reference : CommitRef,
        store.pendingCommits[reference]? = reducer.commits[reference]?.map Commitment.bytes) ∧
      store.readTip = .ok reducer.tip := by
  obtain ⟨fresh, hreplay, hreducer, -⟩ := h.survives
  have hmirrors := h.mirrors fresh hreplay
  rw [hreducer]
  exact ⟨hmirrors.heads, hmirrors.commits, hmirrors.journaled.readTip⟩

/-- **A block that the reducer accepts.** -/
theorem apply (hnew : Reducer.new parameters parent verifier = .ok start)
    (h : Follows serde identity H start blocks reducer store) (hserde : serde.RoundTrips)
    (hcoverage : ∀ expected, identity.coverage = .exact expected → H ⊆ {expected})
    {block : Block} {evidence : List ReferencedCommit} {outcome : BlockOutcome}
    (happly : reducer.applyBlockDetailed block evidence = some (.ok outcome, next))
    (hcanonical : block.CanonicalFor identity.network) (hreveals : block.Reveals H)
    (hhash : ∀ tip, reducer.tip = some tip → tip.hash ≠ block.hash) :
    ∃ applied, store.applyDelta serde outcome.stateDelta = .ok applied ∧
      Follows serde identity H start (blocks ++ [(block, evidence)]) next applied := by
  obtain ⟨fresh, hreplay, hreducer, -⟩ := h.survives
  have hindexed := Reducer.indexed_replay (Reducer.indexed_new hnew) hreplay
  have hempty := Reducer.history_new hnew
  have hsurvives := h.survives.call (Reducer.indexed_new hnew) hempty
    (c := .applyBlock block evidence) (by rw [Reducer.call, happly]; rfl)
  -- the replay accepts the block with the same outcome
  have happly' := happly
  rw [hreducer] at happly'
  rcases Reducer.applyBlockDetailed_withHistory hindexed reducer.history block evidence with
    ⟨e, -, hfailed⟩ | ⟨outcome', o, hfresh, hok, -⟩
  · rw [hfailed, Option.some.injEq, Prod.mk.injEq] at happly'
    exact absurd happly'.1 (by simp)
  rw [hok, Option.some.injEq, Prod.mk.injEq, Except.ok.injEq] at happly'
  obtain ⟨rfl, -⟩ := happly'
  have hmirrors := h.mirrors fresh hreplay
  have hrestorable : Restorable identity.network H fresh :=
    (Restorable.new hnew).replay h.admitted hreplay
  have htip : fresh.tip = reducer.tip := by rw [hreducer]; rfl
  rw [← htip] at hhash
  rw [← h.identity_eq] at hrestorable hcoverage hcanonical
  obtain ⟨applied, happlied, hmirrors', hidentity⟩ := hmirrors.apply hserde hrestorable hcoverage
    hcanonical hreveals hhash hfresh
  rw [h.identity_eq] at hidentity hcanonical
  refine ⟨applied, happlied, hsurvives, hidentity, fun other hmem ↦ ?_, fun fresh' hreplay' ↦ ?_⟩
  · rcases List.mem_append.1 hmem with hold | hlast
    · exact h.admitted other hold
    · rw [List.mem_singleton.1 hlast]
      exact ⟨hcanonical, hreveals⟩
  · rw [Reducer.replay_append, hreplay] at hreplay'
    have haccept := Reducer.accept_eq_some_iff.2 ⟨outcome', hfresh⟩
    rw [← Option.some.inj (haccept.symm.trans hreplay')]
    exact hmirrors'

/-- **A rollback of the reducer.** -/
theorem rollback (hnew : Reducer.new parameters parent verifier = .ok start)
    (h : Follows serde identity H start blocks reducer store) {expectedHash : Bytes32}
    {delta : StateDelta} (hroll : reducer.rollbackTipDetailed expectedHash = (.ok delta, next))
    (hretained : ∀ tip, reducer.tip = some tip → tip.height ∈ store.rollbackBlocks) :
    ∃ restored, store.rollbackTip serde expectedHash = .ok (next.tip, restored) ∧
      Follows serde identity H start blocks.dropLast next restored := by
  obtain ⟨fresh, hreplay, hreducer, hsuffix⟩ := h.survives
  have hindexed := Reducer.indexed_new hnew
  have hempty := Reducer.history_new hnew
  have hsurvives : Survives start blocks.dropLast next := by
    have hcall := h.survives.call hindexed hempty (c := .rollbackTip expectedHash)
      (by rw [Reducer.call, hroll])
    exact hcall
  rcases reducer.rollbackTipDetailed_cases expectedHash with
    ⟨e, hfailed⟩ | ⟨-, -, -, hnonempty, hhash⟩
  · rw [hfailed, Prod.mk.injEq] at hroll
    exact absurd hroll.1 (by simp)
  obtain ⟨previous, last, outcome, o, hprevious, -, -, hfresh, htracks⟩ :=
    Survives.exists_last hindexed hempty hreplay
      (fun hnil ↦ hnonempty (by simpa [hnil] using hsuffix))
  have htip : next.tip = previous.tip := by
    obtain ⟨fresh', hreplay', hnext, -⟩ := hsurvives
    rw [hprevious, Option.some.injEq] at hreplay'
    rw [hnext, hreplay']
    rfl
  have hlast : last.1.hash = expectedHash := by
    rw [← hhash, hreducer, hfresh]
    rfl
  have hmirrors := h.mirrors fresh hreplay
  rw [hfresh] at hmirrors
  have hmem : last.1.height ∈ store.rollbackBlocks := by
    refine hretained ⟨last.1.height, last.1.hash⟩ ?_
    rw [hreducer, hfresh]
    rfl
  obtain ⟨restored, hrestored, hmirrors', hidentity⟩ := hmirrors.rollbackTip htracks hmem
  rw [hlast, ← htip] at hrestored
  refine ⟨restored, hrestored, hsurvives, hidentity.trans h.identity_eq,
    fun block hblock ↦ h.admitted block (List.mem_of_mem_dropLast hblock), fun fresh' hreplay' ↦ ?_⟩
  rw [hprevious, Option.some.injEq] at hreplay'
  rw [← hreplay']
  exact hmirrors'

/-- **Any call of the reducer.** -/
theorem call (hnew : Reducer.new parameters parent verifier = .ok start)
    (h : Follows serde identity H start blocks reducer store) (hserde : serde.RoundTrips)
    (hcoverage : ∀ expected, identity.coverage = .exact expected → H ⊆ {expected})
    {c : Call} {reply : Reply} (hcall : reducer.call c = some (reply, next))
    (hblock : ∀ block, c.block = some block → reply.isOk = true →
      block.CanonicalFor identity.network ∧ block.Reveals H ∧
        ∀ tip, reducer.tip = some tip → tip.hash ≠ block.hash)
    {store' : Store B} (hstore : (storeCall c reply).elim (store' = store) fun request ↦
      store.call serde request = (.ok (), store')) :
    Follows serde identity H start (survivorsAfter blocks (c, reply)) next store' := by
  have hsurvives := h.survives.call (Reducer.indexed_new hnew) (Reducer.history_new hnew) hcall
  rcases c with ⟨block, evidence⟩ | expectedHash | height
  · obtain ⟨⟨result, next'⟩, happly, heq⟩ := Option.map_eq_some_iff.1 hcall
    obtain ⟨rfl, rfl⟩ := Prod.mk.inj heq
    rcases result with e | outcome
    · rw [show store' = store from hstore]
      exact ⟨hsurvives, h.identity_eq, h.admitted, h.mirrors⟩
    · obtain ⟨hcanonical, hreveals, hhash⟩ := hblock block rfl rfl
      obtain ⟨applied, happlied, hfollows⟩ :=
        h.apply hnew hserde hcoverage happly hcanonical hreveals hhash
      have hrequest : store.call serde (.applyDelta outcome.stateDelta) = (.ok (), store') := hstore
      rw [Store.call, happlied, Prod.mk.injEq] at hrequest
      rw [← hrequest.2]
      exact hfollows
  · rw [Reducer.call, Option.some.injEq, Prod.mk.injEq] at hcall
    obtain ⟨hreply, hnext⟩ := hcall
    rcases hroll : reducer.rollbackTipDetailed expectedHash with ⟨e | delta, next'⟩
    · rw [hroll] at hreply
      subst hreply
      rw [show store' = store from hstore]
      exact ⟨hsurvives, h.identity_eq, h.admitted, h.mirrors⟩
    · rw [hroll] at hreply hnext
      dsimp only at hreply hnext
      subst hreply hnext
      have hrequest : store.call serde (.rollbackTip expectedHash) = (.ok (), store') := hstore
      rw [Store.call] at hrequest
      rcases hresult : store.rollbackTip serde expectedHash with e | ⟨previous, restored⟩
      · rw [hresult] at hrequest
        exact absurd (congrArg Prod.fst hrequest) (by simp)
      · -- a rollback that succeeds found its journal row
        have hretained : ∀ tip, reducer.tip = some tip → tip.height ∈ store.rollbackBlocks := by
          intro tip htip
          obtain ⟨t, row, -, hread, -, hrow, -⟩ := Store.rollbackTip_eq_ok_iff.1 hresult
          rw [h.tables.2.2, htip, Except.ok.injEq, Option.some.injEq] at hread
          rw [hread]
          exact OrderedMap.mem_of_getElem?_eq_some hrow
        obtain ⟨restored', hrestored, hfollows⟩ := h.rollback hnew hroll hretained
        rw [hrestored, Prod.mk.injEq] at hrequest
        rw [← hrequest.2]
        exact hfollows
  · rw [Reducer.call, Option.some.injEq, Prod.mk.injEq] at hcall
    obtain ⟨rfl, rfl⟩ := hcall
    rw [show store' = store from hstore]
    exact ⟨hsurvives, h.identity_eq, h.admitted, h.mirrors⟩

end Follows

/-! ### Runs -/

/-- What feeds a store: a reducer, or the resolver of one name. -/
inductive Source
  | full (reducer : Reducer)
  | exact (resolver : ExactResolver)

namespace Source

/-- The reducer of the source. -/
def reducer : Source → Reducer
  | full reducer => reducer
  | exact resolver => resolver.reducer

/-- Perform a call on the source. -/
def call : Source → Call → Option (Reply × Source)
  | full reducer, c => (reducer.call c).map fun result ↦ (result.1, full result.2)
  | exact resolver, c => (resolver.call c).map fun result ↦ (result.1, exact result.2)

/-- The name that the source is restricted to. -/
def nameId : Source → Option NameId
  | full _ => none
  | exact resolver => some resolver.nameId

/-- A source starts with a new reducer or a new resolver. -/
def New (parameters : Parameters) (parent : Bytes32) (verifier : ProofVerifier) : Source → Prop
  | full reducer => Reducer.new parameters parent verifier = .ok reducer
  | exact resolver => ExactResolver.new parameters parent resolver.name verifier = .ok resolver

end Source

/-- The coverage of a store that follows a source. -/
def Coverage.ofName : Option NameId → Coverage
  | none => .complete
  | some nameId => .exact nameId

/-- A block as the reducer of a source sees it. -/
def Block.seen (block : Block) : Option NameId → Block
  | none => block
  | some nameId => block.filtered nameId

/-- **A source and a store that is fed by it**, with the surviving blocks. Accepted blocks have
canonical addresses, and a hash other than that of the tip; the store may also finalize on its
own. -/
inductive Fed (serde : Serde B HeadRecord) (identity : StoreIdentity) (start : Source) :
    List (Block × List ReferencedCommit) → Source → Store B → Prop
  | new : Fed serde identity start [] start (Store.new identity)
  | call {blocks : List (Block × List ReferencedCommit)} {source next : Source}
      {store store' : Store B} {c : Call} {reply : Reply}
      (hfed : Fed serde identity start blocks source store)
      (hcall : source.call c = some (reply, next))
      (hblock : ∀ block, c.block = some block → reply.isOk = true →
        (block.seen source.nameId).CanonicalFor identity.network ∧
          ∀ tip, source.reducer.tip = some tip → tip.hash ≠ block.hash)
      (hstore : (storeCall c reply).elim (store' = store) fun request ↦
        store.call serde request = (.ok (), store')) :
      Fed serde identity start (survivorsAfter blocks (c, reply)) next store'
  | finalize {blocks : List (Block × List ReferencedCommit)} {source : Source} {store : Store B}
      (hfed : Fed serde identity start blocks source store) (height : U32) :
      Fed serde identity start blocks source (store.call serde (.finalizeThrough height)).2

/-! ### Every run -/

/-- A call as the reducer of a source sees it. -/
def Call.seen (c : Call) : Option NameId → Call
  | none => c
  | some nameId => c.filtered nameId

theorem Call.block_seen (c : Call) (nameId : Option NameId) :
    (c.seen nameId).block = c.block.map fun block ↦ block.seen nameId := by
  rcases nameId with - | nameId
  · exact (Option.map_id' (x := c.block)).symm
  · rcases c with ⟨block, evidence⟩ | expectedHash | height
    · rfl
    · rfl
    · rfl

theorem Call.seen_applyBlock (block : Block) (evidence : List ReferencedCommit)
    (nameId : Option NameId) :
    (Call.applyBlock block evidence).seen nameId = .applyBlock (block.seen nameId) evidence := by
  rcases nameId with - | nameId
  · rfl
  · rfl

theorem Call.seen_rollbackTip (expectedHash : Bytes32) (nameId : Option NameId) :
    (Call.rollbackTip expectedHash).seen nameId = .rollbackTip expectedHash := by
  rcases nameId with - | nameId
  · rfl
  · rfl

theorem Block.seen_hash (block : Block) (nameId : Option NameId) :
    (block.seen nameId).hash = block.hash := by
  rcases nameId with - | nameId
  · rfl
  · rfl

/-- A call of the source is one of its reducer. -/
theorem Source.call_eq_some {source next : Source} {c : Call} {reply : Reply}
    (h : source.call c = some (reply, next)) :
    source.reducer.call (c.seen source.nameId) = some (reply, next.reducer) ∧
      next.nameId = source.nameId := by
  rcases source with reducer | resolver
  · obtain ⟨result, hcall, heq⟩ := Option.map_eq_some_iff.1 h
    obtain ⟨rfl, rfl⟩ := Prod.mk.inj heq
    exact ⟨hcall, rfl⟩
  · obtain ⟨result, hcall, heq⟩ := Option.map_eq_some_iff.1 h
    obtain ⟨rfl, rfl⟩ := Prod.mk.inj heq
    obtain ⟨hname, hreducer⟩ := ExactResolver.call_eq_some_iff.1 hcall
    refine ⟨hreducer, congrArg some ?_⟩
    have hid := result.2.id_eq
    rw [hname, resolver.id_eq, Except.ok.injEq] at hid
    exact hid.symm

/-- The blocks as the reducer of a source sees them. -/
def seenBlocks (nameId : Option NameId) (blocks : List (Block × List ReferencedCommit)) :
    List (Block × List ReferencedCommit) :=
  blocks.map fun block ↦ (block.1.seen nameId, block.2)

/-- The names a source can have records of. -/
def coveredNames (nameId : Option NameId) : Set NameId :=
    {id | ∀ only, nameId = some only → id = only}

theorem Block.reveals_seen (block : Block) (nameId : Option NameId) :
    (block.seen nameId).Reveals (coveredNames nameId) := by
  rcases nameId with - | nameId
  · intro transaction _ op other _ _ only honly
    exact absurd honly (by simp)
  · intro transaction hmem op other hop hid only honly
    rw [← Option.some.inj honly]
    exact block.reveals_filtered nameId transaction hmem op other hop hid

/-- Surviving blocks, as the reducer sees them. -/
theorem survivorsAfter_seen (nameId : Option NameId) (blocks : List (Block × List ReferencedCommit))
    (c : Call) (reply : Reply) :
    survivorsAfter (seenBlocks nameId blocks) (c.seen nameId, reply) =
      seenBlocks nameId (survivorsAfter blocks (c, reply)) := by
  rcases nameId with - | nameId
  · have hself : ∀ blocks, seenBlocks none blocks = blocks := fun blocks ↦ List.map_id' blocks
    rw [hself, hself]
    rfl
  · rcases c with ⟨block, evidence⟩ | expectedHash | height
    · rcases reply with (e | outcome) | result | result
      · rfl
      · rw [survivorsAfter, seenBlocks, seenBlocks, List.map_append]
        rfl
      · rfl
      · rfl
    · rcases reply with result | (e | delta) | result
      · rfl
      · rfl
      · rw [survivorsAfter, seenBlocks, seenBlocks, List.map_dropLast]
        rfl
      · rfl
    · rcases reply with result | result | result
      · rfl
      · rfl
      · rfl

theorem storeCall_seen (nameId : Option NameId) (c : Call) (reply : Reply) :
    storeCall (c.seen nameId) reply = storeCall c reply := by
  rcases nameId with - | nameId
  · rfl
  · rcases c with ⟨block, evidence⟩ | expectedHash | height
    · rcases reply with (e | outcome) | result | result
      · rfl
      · rfl
      · rfl
      · rfl
    · rcases reply with result | (e | delta) | result
      · rfl
      · rfl
      · rfl
      · rfl
    · rfl

omit [Primitives] in
/-- An exact store covers the names of its source. -/
theorem coveredNames_subset {identity : StoreIdentity} {nameId : Option NameId}
    (hcoverage : identity.coverage = .ofName nameId) :
    ∀ expected, identity.coverage = .exact expected → coveredNames nameId ⊆ {expected} := by
  intro expected hexpected id hid
  rw [hcoverage] at hexpected
  rcases nameId with - | only
  · exact absurd hexpected (by simp [Coverage.ofName])
  · exact (hid only rfl).trans (Coverage.exact.inj hexpected)

theorem Source.new_reducer {parameters : Parameters} {parent : Bytes32} {verifier : ProofVerifier}
    {start : Source} (hnew : start.New parameters parent verifier) :
    Reducer.new parameters parent verifier = .ok start.reducer := by
  rcases start with reducer | resolver
  · exact hnew
  · exact (ExactResolver.new_eq_ok_iff.1 hnew).2

omit [Primitives] in
/-- What an authoritative answer says about the store. -/
theorem Store.missingAuthority_eq_authoritative {store : Store B} {nameId : NameId}
    {tip : ReducerTip} (h : store.missingAuthority nameId tip = .ok .authoritative) :
    store.readTip = .ok (some tip) ∧
      (store.identity.coverage = .complete ∨ store.identity.coverage = .exact nameId) := by
  rw [missingAuthority, Except.bind_eq_ok_iff] at h
  obtain ⟨current, hread, hanswer⟩ := h
  split at hanswer
  · exact absurd hanswer (by simp [pure, Except.pure])
  · rename_i htip
    rw [not_not] at htip
    rw [pure, Applicative.toPure] at hanswer
    refine ⟨hread.trans (congrArg _ htip), ?_⟩
    have hanswer := Except.ok.inj hanswer
    split at hanswer
    · exact Or.inl ‹_›
    · rename_i expected hkind
      split at hanswer
      · rename_i heq
        rw [← heq]
        exact Or.inr hkind
      · exact absurd hanswer (by simp)
    · exact absurd hanswer (by simp)

namespace Fed

variable {identity : StoreIdentity} {parameters : Parameters} {parent : Bytes32}
  {verifier : ProofVerifier} {start source : Source}
  {blocks : List (Block × List ReferencedCommit)} {store : Store B}

/-- **The store follows the reducer of its source.** -/
theorem follows (hserde : serde.RoundTrips) (hnew : start.New parameters parent verifier)
    (hcoverage : identity.coverage = .ofName start.nameId)
    (h : Fed serde identity start blocks source store) :
    source.nameId = start.nameId ∧ Follows serde identity (coveredNames start.nameId) start.reducer
      (seenBlocks start.nameId blocks) source.reducer store := by
  have hnewReducer := Source.new_reducer hnew
  induction h with
  | new =>
    refine ⟨rfl, ⟨start.reducer, rfl, rfl, List.suffix_refl _⟩, rfl,
      fun block hmem ↦ absurd hmem List.not_mem_nil, fun fresh hreplay ↦ ?_⟩
    rw [← Option.some.inj hreplay]
    exact .new hnewReducer identity
  | @call blocks source next store store' c reply _ hcall hblock hstore ih =>
    obtain ⟨hname, hfollows⟩ := ih
    obtain ⟨hcall', hname'⟩ := Source.call_eq_some hcall
    refine ⟨hname'.trans hname, ?_⟩
    rw [hname] at hcall' hblock
    rw [← storeCall_seen start.nameId] at hstore
    rw [← survivorsAfter_seen]
    refine hfollows.call hnewReducer hserde (coveredNames_subset hcoverage) hcall'
      (fun block hsees hok ↦ ?_) hstore
    rw [Call.block_seen] at hsees
    obtain ⟨original, horiginal, rfl⟩ := Option.map_eq_some_iff.1 hsees
    obtain ⟨hcanonical, hhash⟩ := hblock original horiginal hok
    refine ⟨hcanonical, original.reveals_seen start.nameId, fun tip htip ↦ ?_⟩
    rw [Block.seen_hash]
    exact hhash tip htip
  | @finalize blocks source store _ height ih =>
    obtain ⟨hname, hfollows⟩ := ih
    refine ⟨hname, ?_⟩
    rw [Store.call]
    rcases hfinalize : store.finalizeThrough height with e | final
    · exact hfollows
    · obtain ⟨-, -, -, -, hfinal⟩ := Store.finalizeThrough_eq_ok_iff.1 hfinalize
      refine ⟨hfollows.survives, ?_, hfollows.admitted, fun fresh hreplay ↦
        (hfollows.mirrors fresh hreplay).finalizeThrough hfinalize⟩
      rw [hfinal]
      exact hfollows.identity_eq

/-- **An answer of the store that a name is missing.** The full reducer has no head of the name
after the same blocks and evidence. -/
theorem missing (hserde : serde.RoundTrips) (hnew : start.New parameters parent verifier)
    (hcoverage : identity.coverage = .ofName start.nameId)
    (h : Fed serde identity start blocks source store) {nameId : NameId} {tip : ReducerTip}
    (hauthority : store.missingAuthority nameId tip = .ok .authoritative)
    (hhead : store.readHead nameId = none) :
    ∃ full final, Reducer.new parameters parent verifier = .ok full ∧
      full.replay blocks = some final ∧ final.tip = some tip ∧ final.heads[nameId]? = none := by
  obtain ⟨hname, hfollows⟩ := h.follows hserde hnew hcoverage
  obtain ⟨hheads, -, htip⟩ := hfollows.tables
  obtain ⟨fresh, hreplay, hreducer, -⟩ := hfollows.survives
  rw [Store.readHead, hheads, Option.map_eq_none_iff, hreducer] at hhead
  obtain ⟨hread, hcovered⟩ := Store.missingAuthority_eq_authoritative hauthority
  rw [htip, Except.ok.injEq, hreducer] at hread
  rw [hfollows.identity_eq, hcoverage] at hcovered
  rcases start with reducer | resolver
  · -- the store follows the full reducer itself
    rw [show seenBlocks (Source.full reducer).nameId blocks = blocks from List.map_id' blocks]
      at hreplay
    exact ⟨reducer, fresh, hnew, hreplay, hread, hhead⟩
  · obtain rfl : resolver.nameId = nameId := by
      rcases hcovered with hcomplete | hexact
      · exact absurd hcomplete (by simp [Source.nameId, Coverage.ofName])
      · exact Coverage.exact.inj hexact
    have hnewReducer := (ExactResolver.new_eq_ok_iff.1 hnew).2
    obtain ⟨final, hfinal, halike⟩ := (Alike.new hnewReducer).replay hreplay
    refine ⟨resolver.reducer, final, hnewReducer, hfinal, ?_, ?_⟩
    · rw [← hread, Reducer.tip, ← halike.tipHeight, ← halike.previousHash]
      rfl
    · rw [halike.head]
      exact hhead

end Fed

/-- **The store refines the reducer.** -/
theorem store_refines_reducer {serde : Serde B HeadRecord} (hserde : serde.RoundTrips)
    {parameters : Parameters} {parent : Bytes32} {verifier : ProofVerifier} {start : Source}
    (hnew : start.New parameters parent verifier) {identity : StoreIdentity}
    (hcoverage : identity.coverage = .ofName start.nameId)
    {blocks : List (Block × List ReferencedCommit)} {source : Source} {store : Store B}
    (h : Fed serde identity start blocks source store) :
    (∀ nameId : NameId, store.heads[nameId]? = source.reducer.heads[nameId]?.map Head.store) ∧
    (∀ reference : CommitRef, store.pendingCommits[reference]? =
      source.reducer.commits[reference]?.map Commitment.bytes) ∧
    store.readTip = .ok source.reducer.tip ∧
    (∀ block evidence outcome next,
      source.call (.applyBlock block evidence) = some (.applied (.ok outcome), next) →
      (block.seen source.nameId).CanonicalFor identity.network →
      (∀ tip, source.reducer.tip = some tip → tip.hash ≠ block.hash) →
      ∃ applied, store.applyDelta serde outcome.stateDelta = .ok applied ∧
        Fed serde identity start (blocks ++ [(block, evidence)]) next applied) ∧
    (∀ expectedHash delta next,
      source.call (.rollbackTip expectedHash) = some (.rolledBack (.ok delta), next) →
      (∀ tip, source.reducer.tip = some tip → tip.height ∈ store.rollbackBlocks) →
      ∃ restored, store.rollbackTip serde expectedHash = .ok (next.reducer.tip, restored) ∧
        Fed serde identity start blocks.dropLast next restored) ∧
    ∀ nameId tip, store.missingAuthority nameId tip = .ok .authoritative →
      store.readHead nameId = none →
      ∃ full final, Reducer.new parameters parent verifier = .ok full ∧
        full.replay blocks = some final ∧ final.tip = some tip ∧
        ∀ name : Name, name.id = .ok nameId →
          final.resolveAuthenticated name tip.height = .ok ⟨.missing, none, none⟩ := by
  obtain ⟨hname, hfollows⟩ := h.follows hserde hnew hcoverage
  have hnewReducer := Source.new_reducer hnew
  refine ⟨hfollows.tables.1, hfollows.tables.2.1, hfollows.tables.2.2,
    fun block evidence outcome next hcall hcanonical hhash ↦ ?_,
    fun expectedHash delta next hcall hretained ↦ ?_, fun nameId tip hauthority hhead ↦ ?_⟩
  · obtain ⟨applied, happlied⟩ : ∃ applied,
        store.applyDelta serde outcome.stateDelta = .ok applied := by
      obtain ⟨hcall', -⟩ := Source.call_eq_some hcall
      rw [Call.seen_applyBlock] at hcall'
      obtain ⟨⟨result, next'⟩, happly, heq⟩ := Option.map_eq_some_iff.1 hcall'
      obtain ⟨hresult, hnext⟩ := Prod.mk.inj heq
      rw [show result = .ok outcome from Reply.applied.inj hresult,
        show next' = next.reducer from hnext] at happly
      rw [hname] at happly hcanonical
      obtain ⟨applied, happlied, -⟩ := hfollows.apply hnewReducer hserde
        (coveredNames_subset hcoverage) happly hcanonical (block.reveals_seen start.nameId)
        (fun tip htip ↦ by rw [Block.seen_hash]; exact hhash tip htip)
      exact ⟨applied, happlied⟩
    refine ⟨applied, happlied, ?_⟩
    have hblock : ∀ other, (Call.applyBlock block evidence).block = some other →
        (Reply.applied (.ok outcome)).isOk = true →
        (other.seen source.nameId).CanonicalFor identity.network ∧
          ∀ tip, source.reducer.tip = some tip → tip.hash ≠ other.hash := by
      intro other hother _
      rw [← Option.some.inj hother]
      exact ⟨hcanonical, hhash⟩
    refine h.call hcall hblock ?_
    rw [storeCall, Option.elim_some, Store.call, happlied]
  · obtain ⟨hcall', -⟩ := Source.call_eq_some hcall
    rw [Call.seen_rollbackTip, Reducer.call, Option.some.injEq, Prod.mk.injEq,
      Reply.rolledBack.injEq] at hcall'
    obtain ⟨restored, hrestored, -⟩ := hfollows.rollback hnewReducer (Prod.ext hcall'.1 hcall'.2)
      hretained
    refine ⟨restored, hrestored, ?_⟩
    refine h.call hcall (fun other hother ↦ absurd hother (by simp [Call.block])) ?_
    rw [storeCall, Option.elim_some, Store.call, hrestored]
  · obtain ⟨full, final, hfull, hreplay, htip, hnone⟩ :=
      h.missing hserde hnew hcoverage hauthority hhead
    refine ⟨full, final, hfull, hreplay, htip, fun name hid ↦ ?_⟩
    obtain ⟨height, hheight, heq⟩ := Option.map_eq_some_iff.1 htip
    rw [Reducer.resolveAuthenticated, hheight, ← heq]
    dsimp only
    rw [if_neg (lt_irrefl height), if_neg (not_not.2 rfl), Reducer.resolve, hid]
    dsimp only
    rw [hnone]

end Refinement

namespace Sample

/-- A store that is fed the first two blocks of the small chain; the second one reveals `alice`. -/
theorem store_refines_reducer_chain : ∃ (source : Source) (store : Store HeadRecord),
    Fed recordSerde storeIdentity (.full start) [(block0, []), (block1, [])] source store ∧
    source.reducer.heads.toList.length = 1 ∧ store.readTip = .ok (some ⟨1, block1.hash⟩) ∧
    ∀ nameId : NameId, store.heads[nameId]? = source.reducer.heads[nameId]?.map Head.store := by
  have hserde : recordSerde.RoundTrips := fun record ↦ ⟨record, rfl, rfl⟩
  have hnew : (Source.full start).New parameters parent verifier := new_eq_start
  have hreplay : ((start.replay [(block0, []), (block1, [])]).map fun reducer ↦
      (reducer.tip, reducer.heads.toList.length)) = some (some ⟨1, block1.hash⟩, 1) := by
    decide +kernel
  obtain ⟨last, hreplay, hlast⟩ := Option.map_eq_some_iff.1 hreplay
  obtain ⟨htip, hlength⟩ := Prod.mk.inj hlast
  obtain ⟨middle, hfirst, hsecond⟩ := Reducer.replay_cons_eq_some_iff.1 hreplay
  obtain ⟨_, hsecond, heq⟩ := Reducer.replay_cons_eq_some_iff.1 hsecond
  rw [Option.some.inj heq] at hsecond
  obtain ⟨outcome, happly⟩ := Reducer.accept_eq_some_iff.1 hfirst
  obtain ⟨outcome', happly'⟩ := Reducer.accept_eq_some_iff.1 hsecond
  have hmiddle : middle.tip = some ⟨0, block0.hash⟩ := by
    obtain ⟨-, -, -, -, -, o, -, -, -, rfl, -⟩ := Reducer.applyBlockDetailed_eq_ok_iff.1 happly
    rfl
  have hcanonical : block0.CanonicalFor .regtest := block_canonicalFor (by simp)
  have hcanonical' : block1.CanonicalFor .regtest := block_canonicalFor (by simp)
  -- both deltas are applied
  obtain ⟨-, -, -, happlies, -⟩ := store_refines_reducer hserde hnew (rfl :
    storeIdentity.coverage = _) .new
  obtain ⟨store, -, hfed⟩ := happlies block0 [] outcome (.full middle)
    (by rw [Source.call, Reducer.call, happly]; rfl) hcanonical
    (fun tip htip ↦ absurd htip (by simp [Source.reducer, Reducer.tip, start]))
  obtain ⟨-, -, -, happlies', -⟩ := store_refines_reducer hserde hnew rfl hfed
  obtain ⟨store', -, hfed'⟩ := happlies' block1 [] outcome' (.full last)
    (by rw [Source.call, Reducer.call, happly']; rfl) hcanonical'
    (fun tip htip ↦ by
      rw [show (Source.full middle).reducer.tip = _ from hmiddle, Option.some.injEq] at htip
      rw [← htip]
      decide)
  obtain ⟨hheads, -, hread, -⟩ := store_refines_reducer hserde hnew rfl hfed'
  rw [show (Source.full last).reducer.tip = _ from htip] at hread
  exact ⟨.full last, store', hfed', hlength, hread, hheads⟩

end Sample

end CoppiceNames
