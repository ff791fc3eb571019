import CoppiceNames.Store.Refinement
import CoppiceNames.Store.Wallet

/-!
# Rewinding a wallet

`rollback_to_height` and `rollback_to_height_or_reset` of `WalletNamesTransaction`. The first undoes
one block after the other and fails at a block without a journal row, with the blocks above it
already undone; the second then wipes the replayable tables.

The rewind is compared with a replay: the tables after it are those of a new store that is given the
surviving deltas only. A store whose journal has lost rows is a store with the complete journal,
pruned (`Store.PrunedFrom`); undoing a journaled block leads to the store before the block, pruned
again (`Store.PrunedFrom.rollbackTip`).
-/

open Std hiding not_le not_lt

namespace CoppiceNames

section Rewind

variable [Primitives] {B : Type}

namespace WalletStore

variable (serde : Serde B HeadRecord) (store : WalletStore B)

variable {serde store} in
/-- A block that was rolled back had a row in the journal, and it is gone. -/
theorem size_rollbackTip {next : WalletStore B} {previous : Option ReducerTip}
    (h : store.rollbackTip serde = (.ok previous, next)) :
    next.rollbackBlocks.size < store.rollbackBlocks.size := by
  obtain ⟨hash, hhash⟩ : ∃ hash, ∀ tip, store.toStore.readTip = .ok (some tip) →
    hash = tip.hash := by
    rcases store.toStore.readTip with e | (- | tip)
    · exact ⟨.replicate 32 0, fun tip htip ↦ absurd htip (by simp)⟩
    · exact ⟨.replicate 32 0, fun tip htip ↦ absurd htip (by simp)⟩
    · refine ⟨tip.hash, fun tip' htip ↦ ?_⟩
      rw [Except.ok.injEq, Option.some.injEq] at htip
      rw [htip]
  rcases @rollbackTip_agrees _ B serde store _ hhash with
    ⟨e, failed, -, hfailed⟩ | ⟨previous', tables, tables', htables, hrolled, hsame⟩
  · rw [h] at hfailed
    exact absurd (congrArg Prod.fst hfailed) (by simp)
  · rw [h] at hrolled
    rw [(Prod.mk.inj hrolled).2, show (store.withTables tables').rollbackBlocks =
      tables'.rollbackBlocks from rfl, ← hsame.rollbackBlocks]
    obtain ⟨tip, row, restored, -, -, hrow, -, -, hrestored, rfl⟩ :=
      Store.rollbackTip_eq_ok_iff.1 htables
    rw [Store.foldl_writeCommit, Store.foldlM_restoreHeadRow_frame hrestored]
    exact OrderedMap.size_filter_lt (OrderedMap.mem_of_getElem?_eq_some hrow) (by simp)

/-- The loop of `rollback_to_height`. -/
def rollbackAbove (height : U32) (store : WalletStore B) :
    Except StoreError Unit × WalletStore B :=
  match store.tip with
  | .error e => (.error e, store)
  | .ok tip =>
    if tip.any fun tip ↦ height < tip.height then
      match _hstep : store.rollbackTip serde with
      | (.error e, next) => (.error e, next)
      | (.ok _, next) => rollbackAbove height next
    else (.ok (), store)
termination_by store.rollbackBlocks.size
decreasing_by exact size_rollbackTip _hstep

/-- `UPDATE metadata SET core_snapshot = NULL`. -/
def clearCoreSnapshot : WalletStore B :=
  { store with coreSnapshot := none }

/-- `rollback_to_height`. -/
def rollbackToHeight (height : U32) : Except StoreError (Option ReducerTip) × WalletStore B :=
  match store.tip with
  | .error e => (.error e, store)
  | .ok originalTip =>
    match rollbackAbove serde height store with
    | (.error e, next) => (.error e, next)
    | (.ok (), next) =>
      match next.tip with
      | .error e => (.error e, next)
      | .ok tip =>
        let next := if tip ≠ originalTip then next.clearCoreSnapshot else next
        (next.tip, next)

/-- `DELETE FROM wallet_commits WHERE height > ?1`. -/
def forgetCommitsAbove (height : U32) : WalletStore B :=
  { store with
    walletCommits := store.walletCommits.filter fun _ reference ↦ reference.height ≤ height }

/-- `rollback_to_height_or_reset`. -/
def rollbackToHeightOrReset (height : U32) :
    Except StoreError (Option ReducerTip) × WalletStore B :=
  let result : Except StoreError (Option ReducerTip) × WalletStore B :=
    match store.rollbackToHeight serde height with
    | (.ok tip, next) => (.ok tip, next)
    | (.error .missingRollbackJournal, next) => (.ok none, next.resetForReplay)
    | (.error e, next) => (.error e, next)
  match result with
  | (.ok tip, next) => (.ok tip, next.forgetCommitsAbove height)
  | (.error e, next) => (.error e, next)

end WalletStore

/-! ### A delta and its undoing -/

omit [Primitives] in
theorem decodeOptionalTip_eq_ok_iff {height : Option U32} {hash : Option Bytes32}
    {tip : Option ReducerTip} : decodeOptionalTip height hash = .ok tip ↔
      height = tip.map ReducerTip.height ∧ hash = tip.map ReducerTip.hash := by
  constructor
  · rcases height with - | height
    · rcases hash with - | hash
      · intro h
        rw [← Except.ok.inj h]
        exact ⟨rfl, rfl⟩
      · exact fun h ↦ absurd h (by simp [decodeOptionalTip])
    · rcases hash with - | hash
      · exact fun h ↦ absurd h (by simp [decodeOptionalTip])
      · intro h
        rw [← Except.ok.inj h]
        exact ⟨rfl, rfl⟩
  · rintro ⟨rfl, rfl⟩
    exact decodeOptionalTip_map tip

/-- The checks of a delta that read no table. -/
structure StateDelta.Admissible (identity : StoreIdentity) (delta : StateDelta)
    (toTip : ReducerTip) : Prop where
  toTip_eq : delta.toTip = some toTip
  sequential : ∀ tip, delta.fromTip = some tip →
    U32.checkedAdd tip.height 1 = some toTip.height ∧ tip.hash ≠ toTip.hash
  covered : identity.coverage.admits delta.heads = true
  valid : ∀ change ∈ delta.heads,
    validateRecord change.nameId (change.previous.map Head.store) identity.network
      (delta.fromTip.map ReducerTip.height) = .ok () ∧
    validateRecord change.nameId (change.current.map Head.store) identity.network
      (some toTip.height) = .ok ()

namespace Store

variable {serde : Serde B HeadRecord} {store next : Store B}

/-- What an applied delta wrote. -/
structure Written (serde : Serde B HeadRecord) (store : Store B) (delta : StateDelta)
    (toTip : ReducerTip) (next : Store B) : Prop where
  heads : (delta.heads.map (headWrite serde)).foldlM (JournaledWrite.perform toTip.height)
    (store.heads, store.rollbackHeads) = some (next.heads, next.rollbackHeads)
  commits : (delta.commits.map commitWrite).foldlM (JournaledWrite.perform toTip.height)
    (store.pendingCommits, store.rollbackCommits) =
      some (next.pendingCommits, next.rollbackCommits)
  frame : next = { store with
    heads := next.heads
    pendingCommits := next.pendingCommits
    rollbackHeads := next.rollbackHeads
    rollbackCommits := next.rollbackCommits
    rollbackBlocks := store.rollbackBlocks.insert toTip.height
      ⟨toTip.hash, delta.fromTip.map ReducerTip.height, delta.fromTip.map ReducerTip.hash⟩
    tipHeight := some toTip.height
    tipHash := some toTip.hash }

/-- **An applied delta** passes the checks, and performs its writes below a new row of the
journal. -/
theorem applyDelta_eq_ok_iff_written (hserde : serde.RoundTrips) {delta : StateDelta} :
    store.applyDelta serde delta = .ok next ↔ store.readTip = .ok delta.fromTip ∧
      ∃ toTip, delta.Admissible store.identity toTip ∧ toTip.height ∉ store.rollbackBlocks ∧
        Written serde store delta toTip next := by
  rw [applyDelta_eq_ok_iff]
  refine and_congr_right fun _ ↦ exists_congr fun toTip ↦ ?_
  have hparent : toTip.height ∈ store.rollbackBlocks.insert toTip.height
      ⟨toTip.hash, delta.fromTip.map ReducerTip.height, delta.fromTip.map ReducerTip.hash⟩ :=
    ExtTreeMap.mem_insert_self
  constructor
  · rintro ⟨htoTip, hsequential, hcovered, hnew, written, committed, hwritten, hcommitted, rfl⟩
    obtain ⟨hvalid, heads, headRows, hheads, rfl⟩ :=
      (foldlM_applyHeadChange_eq_ok_iff hserde (by exact hparent)).1 hwritten
    obtain ⟨commits, commitRows, hcommits, rfl⟩ :=
      (foldlM_applyCommitChange_eq_ok_iff (by exact hparent)).1 hcommitted
    exact ⟨⟨htoTip, hsequential, hcovered, hvalid⟩, hnew, hheads, hcommits, rfl⟩
  · rintro ⟨⟨htoTip, hsequential, hcovered, hvalid⟩, hnew, hheads, hcommits, hframe⟩
    refine ⟨htoTip, hsequential, hcovered, hnew, _, _,
      (foldlM_applyHeadChange_eq_ok_iff hserde (by exact hparent)).2
        ⟨hvalid, next.heads, next.rollbackHeads, hheads, rfl⟩,
      (foldlM_applyCommitChange_eq_ok_iff (by exact hparent)).2
        ⟨next.pendingCommits, next.rollbackCommits, hcommits, rfl⟩, hframe⟩

namespace Written

variable {delta : StateDelta} {toTip : ReducerTip}

/-- The row of the block. -/
theorem getElem?_rollbackBlocks (h : Written serde store delta toTip next) (height : U32) :
    next.rollbackBlocks[height]? = if toTip.height = height then
        some ⟨toTip.hash, delta.fromTip.map ReducerTip.height, delta.fromTip.map ReducerTip.hash⟩
      else store.rollbackBlocks[height]? := by
  rw [h.frame, ExtTreeMap.getElem?_insert]
  simp only [LawfulEqCmp.compare_eq_iff_eq]

theorem mem_rollbackBlocks (h : Written serde store delta toTip next) {height : U32} :
    height ∈ next.rollbackBlocks ↔ toTip.height = height ∨ height ∈ store.rollbackBlocks := by
  rw [h.frame, ExtTreeMap.mem_insert, LawfulEqCmp.compare_eq_iff_eq]

theorem rollbackHeads_rows (h : Written serde store delta toTip next) {height : U32}
    (hne : height ≠ toTip.height) :
    next.rollbackHeads.rows height = store.rollbackHeads.rows height :=
  JournaledWrite.rows_foldlM_perform hne h.heads

theorem rollbackCommits_rows (h : Written serde store delta toTip next) {height : U32}
    (hne : height ≠ toTip.height) :
    next.rollbackCommits.rows height = store.rollbackCommits.rows height :=
  JournaledWrite.rows_foldlM_perform hne h.commits

/-- **The journaled heads lead back.** -/
theorem putAll_heads (h : Written serde store delta toTip next) (hserde : serde.RoundTrips)
    (hempty : store.rollbackHeads.rows toTip.height = ∅) :
    OrderedMap.putAll next.heads ((next.rollbackHeads.rows toTip.height).toList.map fun row ↦
      (row.1, row.2.bind serde.fromSlice)) = store.heads := by
  have hundo : ∀ write ∈ delta.heads.map (headWrite serde),
      (write.recorded.bind serde.fromSlice) = write.expected := by
    intro write hwrite
    obtain ⟨change, -, rfl⟩ := List.mem_map.1 hwrite
    exact bind_recorded hserde change.previous
  refine ExtTreeMap.ext_getElem? fun nameId ↦ ?_
  refine (OrderedMap.getElem?_putAll_map_toList _ _
    (fun recorded : Option B ↦ recorded.bind serde.fromSlice) nameId).trans ?_
  rw [JournaledWrite.getD_foldlM_perform _ hundo h.heads, hempty, ExtTreeMap.getElem?_empty]
  rfl

/-- **The journaled COMMITs lead back.** -/
theorem putAll_commits (h : Written serde store delta toTip next)
    (hempty : store.rollbackCommits.rows toTip.height = ∅) :
    OrderedMap.putAll next.pendingCommits (next.rollbackCommits.rows toTip.height).toList =
      store.pendingCommits := by
  have hundo : ∀ write ∈ delta.commits.map commitWrite, id write.recorded = write.expected := by
    intro write hwrite
    obtain ⟨change, -, rfl⟩ := List.mem_map.1 hwrite
    rfl
  refine ExtTreeMap.ext_getElem? fun reference ↦ ?_
  have hvalue := JournaledWrite.getD_foldlM_perform id hundo h.commits reference
  rw [hempty, ExtTreeMap.getElem?_empty, Option.map_id_apply] at hvalue
  rw [OrderedMap.getElem?_putAll_toList]
  exact hvalue

/-- The journaled heads are accepted before the block. -/
theorem restores (h : Written serde store delta toTip next) (hserde : serde.RoundTrips)
    (hadmissible : delta.Admissible store.identity toTip)
    (hempty : store.rollbackHeads.rows toTip.height = ∅) {nameId : NameId} {bytes : B}
    (hrow : (nameId, some bytes) ∈ (next.rollbackHeads.rows toTip.height).toList) :
    Restores serde store.identity.network (delta.fromTip.map ReducerTip.height) nameId bytes := by
  refine (recorded_or_restores hserde (fun change hchange ↦ (hadmissible.valid change hchange).1)
    h.heads (OrderedMap.getElem?_eq_some_iff_mem_toList.2 hrow)).resolve_left fun hold ↦ ?_
  rw [hempty, ExtTreeMap.getElem?_empty] at hold
  exact absurd hold (by simp)

end Written

/-! ### Replays and pruned journals -/

/-- Give a new store the deltas in order. -/
def replay (serde : Serde B HeadRecord) (identity : StoreIdentity) (deltas : List StateDelta) :
    Except StoreError (Store B) :=
  deltas.foldlM (fun store delta ↦ store.applyDelta serde delta) (new identity)

theorem replay_concat_eq_ok_iff {identity : StoreIdentity} {deltas : List StateDelta}
    {delta : StateDelta} : replay serde identity (deltas ++ [delta]) = .ok next ↔
      ∃ full, replay serde identity deltas = .ok full ∧ full.applyDelta serde delta = .ok next := by
  rw [replay, List.foldlM_append, Except.bind_eq_ok_iff]
  refine exists_congr fun full ↦ and_congr_right fun _ ↦ ?_
  rw [List.foldlM_cons, Except.bind_eq_ok_iff]
  exact ⟨fun ⟨last, hlast, heq⟩ ↦ by rw [← Except.ok.inj heq]; exact hlast,
    fun hlast ↦ ⟨next, hlast, rfl⟩⟩

/-- What a replay leaves: the tip of the last delta, and a journal below it. -/
structure Replayed (identity : StoreIdentity) (deltas : List StateDelta) (full : Store B) :
    Prop where
  identity_eq : full.identity = identity
  tip : full.readTip = .ok (deltas.getLast?.bind StateDelta.toTip)
  top : ∀ delta ∈ deltas, ∃ tip top, delta.toTip = some tip ∧ full.readTip = .ok (some top) ∧
    tip.height ≤ top.height
  below : ∀ height ∈ full.rollbackBlocks, ∃ top, full.readTip = .ok (some top) ∧
    height ≤ top.height
  headOrphans : ∀ height, height ∉ full.rollbackBlocks → full.rollbackHeads.rows height = ∅
  commitOrphans : ∀ height, height ∉ full.rollbackBlocks → full.rollbackCommits.rows height = ∅

/-- The next block lies above all journaled ones. -/
theorem Replayed.fresh {identity : StoreIdentity} {deltas : List StateDelta}
    (h : Replayed identity deltas store) {delta : StateDelta} {toTip : ReducerTip}
    (htip : store.readTip = .ok delta.fromTip) (hadmissible : delta.Admissible identity toTip) :
    (∀ top, store.readTip = .ok (some top) → top.height < toTip.height) ∧
      toTip.height ∉ store.rollbackBlocks := by
  have habove : ∀ top, store.readTip = .ok (some top) → top.height < toTip.height := by
    intro top htop
    rw [htip, Except.ok.injEq] at htop
    have hval := U32.checkedAdd_eq_some_iff.1 (hadmissible.sequential top htop).1
    rw [Fin.lt_def]
    omega
  refine ⟨habove, fun hmem ↦ ?_⟩
  obtain ⟨top, htop, hle⟩ := h.below toTip.height hmem
  exact absurd hle (not_le.2 (habove top htop))

theorem replayed (hserde : serde.RoundTrips) {identity : StoreIdentity} {deltas : List StateDelta}
    (h : replay serde identity deltas = .ok store) : Replayed identity deltas store := by
  induction deltas using List.reverseRecOn generalizing store with
  | nil =>
    rw [← Except.ok.inj h]
    exact ⟨rfl, rfl, fun delta hmem ↦ absurd hmem List.not_mem_nil,
      fun height hmem ↦ absurd hmem ExtTreeMap.not_mem_empty,
      fun height _ ↦ ChildTable.rows_empty height, fun height _ ↦ ChildTable.rows_empty height⟩
  | append_singleton deltas delta ih =>
    obtain ⟨full, hfull, happly⟩ := replay_concat_eq_ok_iff.1 h
    have hbefore := ih hfull
    obtain ⟨htip, toTip, hadmissible, hnew, hwritten⟩ :=
      (applyDelta_eq_ok_iff_written hserde).1 happly
    rw [hbefore.identity_eq] at hadmissible
    have habove := (hbefore.fresh htip hadmissible).1
    have hread : store.readTip = .ok (some toTip) := by
      rw [hwritten.frame]
      rfl
    refine ⟨?_, ?_, fun other hmem ↦ ?_, fun height hmem ↦ ⟨toTip, hread, ?_⟩, fun height hout ↦ ?_,
      fun height hout ↦ ?_⟩
    · rw [hwritten.frame]
      exact hbefore.identity_eq
    · rw [hread, List.getLast?_concat, Option.bind_some, hadmissible.toTip_eq]
    · rcases List.mem_append.1 hmem with hold | hlast
      · obtain ⟨tip, top, htip', htop, hle⟩ := hbefore.top other hold
        exact ⟨tip, toTip, htip', hread, (hle.trans_lt (habove top htop)).le⟩
      · rw [List.mem_singleton.1 hlast]
        exact ⟨toTip, toTip, hadmissible.toTip_eq, hread, le_rfl⟩
    · rcases hwritten.mem_rollbackBlocks.1 hmem with rfl | hold
      · exact le_rfl
      · obtain ⟨top, htop, hle⟩ := hbefore.below height hold
        exact (hle.trans_lt (habove top htop)).le
    · rw [hwritten.mem_rollbackBlocks, not_or] at hout
      rw [hwritten.rollbackHeads_rows (Ne.symm hout.1), hbefore.headOrphans height hout.2]
    · rw [hwritten.mem_rollbackBlocks, not_or] at hout
      rw [hwritten.rollbackCommits_rows (Ne.symm hout.1), hbefore.commitOrphans height hout.2]

/-- **The tables of a store, and a part of its journal.** -/
structure PrunedFrom (full store : Store B) : Prop where
  identity : store.identity = full.identity
  tipHeight : store.tipHeight = full.tipHeight
  tipHash : store.tipHash = full.tipHash
  heads : store.heads = full.heads
  pendingCommits : store.pendingCommits = full.pendingCommits
  blocks : ∀ height ∈ store.rollbackBlocks,
    store.rollbackBlocks[height]? = full.rollbackBlocks[height]?
  headRows : ∀ height, store.rollbackHeads.rows height =
    if height ∈ store.rollbackBlocks then full.rollbackHeads.rows height else ∅
  commitRows : ∀ height, store.rollbackCommits.rows height =
    if height ∈ store.rollbackBlocks then full.rollbackCommits.rows height else ∅

namespace PrunedFrom

variable {full : Store B}

omit [Primitives] in
theorem readTip (h : PrunedFrom full store) : store.readTip = full.readTip := by
  rw [Store.readTip, h.tipHeight, h.tipHash, Store.readTip]

omit [Primitives] in
theorem of_same (h : PrunedFrom full store) (hsame : store.Same next) : PrunedFrom full next where
  identity := hsame.identity.symm.trans h.identity
  tipHeight := hsame.tipHeight.symm.trans h.tipHeight
  tipHash := hsame.tipHash.symm.trans h.tipHash
  heads := hsame.heads.symm.trans h.heads
  pendingCommits := hsame.pendingCommits.symm.trans h.pendingCommits
  blocks := by
    rw [← hsame.rollbackBlocks]
    exact h.blocks
  headRows := by
    intro height
    rw [← hsame.rollbackBlocks, ← hsame.rollbackHeads]
    exact h.headRows height
  commitRows := by
    intro height
    rw [← hsame.rollbackBlocks, ← hsame.rollbackCommits]
    exact h.commitRows height

omit [Primitives] in
/-- The children of the rows that are kept. -/
theorem rows_cascade_kept {K R : Type} [Ord K] [TransOrd K] {rows rows' final : ChildTable U32 K R}
    {kept : U32 → Bool}
    (hrows : ∀ height, rows.rows height =
      if height ∈ store.rollbackBlocks then rows'.rows height else ∅)
    (hkept : ∀ height, kept height = true → rows'.rows height = final.rows height) (height : U32) :
    (rows.cascade kept).rows height =
      if height ∈ (store.rollbackBlocks.filter fun height _ ↦ kept height) then final.rows height
      else ∅ := by
  rw [ChildTable.rows_cascade, hrows, ← ite_and]
  by_cases hin : kept height = true ∧ height ∈ store.rollbackBlocks
  · rw [if_pos hin, if_pos (Journaled.mem_kept.2 hin.symm), hkept height hin.1]
  · rw [if_neg hin, if_neg fun hmem ↦ hin (Journaled.mem_kept.1 hmem).symm]

omit [Primitives] in
/-- Deleting journal rows prunes. -/
theorem keepRollbackBlocks (h : PrunedFrom full store) (kept : U32 → Bool) :
    PrunedFrom full (store.keepRollbackBlocks kept) := by
  refine ⟨h.identity, h.tipHeight, h.tipHash, h.heads, h.pendingCommits, fun height hin ↦ ?_,
    rows_cascade_kept h.headRows fun _ _ ↦ rfl, rows_cascade_kept h.commitRows fun _ _ ↦ rfl⟩
  obtain ⟨hold, hkept⟩ := Journaled.mem_kept.1 hin
  rw [← h.blocks height hold, Store.keepRollbackBlocks, ExtTreeMap.getElem?_filter', hkept]
  rcases store.rollbackBlocks[height]? with - | row
  · rfl
  · rfl

/-- **The next block**, in both stores. -/
theorem applyDelta (h : PrunedFrom full store) (hserde : serde.RoundTrips)
    {identity : StoreIdentity} {deltas : List StateDelta} {delta : StateDelta}
    (hfull : Replayed identity deltas full) (happly : store.applyDelta serde delta = .ok next) :
    ∃ full', full.applyDelta serde delta = .ok full' ∧ PrunedFrom full' next := by
  obtain ⟨htip, toTip, hadmissible, hnew, hwritten⟩ :=
    (applyDelta_eq_ok_iff_written hserde).1 happly
  rw [h.readTip] at htip
  rw [h.identity] at hadmissible
  have hfresh := (hfull.fresh htip (hfull.identity_eq ▸ hadmissible)).2
  -- both stores have no children of the new block yet
  have hheadRows : store.rollbackHeads.rows toTip.height = full.rollbackHeads.rows
    toTip.height := by
    rw [h.headRows, if_neg hnew, hfull.headOrphans _ hfresh]
  have hcommitRows :
      store.rollbackCommits.rows toTip.height = full.rollbackCommits.rows toTip.height := by
    rw [h.commitRows, if_neg hnew, hfull.commitOrphans _ hfresh]
  obtain ⟨headRows, hheads, hsameHeads⟩ :=
    JournaledWrite.foldlM_perform_congr hheadRows hwritten.heads
  obtain ⟨commitRows, hcommits, hsameCommits⟩ :=
    JournaledWrite.foldlM_perform_congr hcommitRows hwritten.commits
  rw [h.heads] at hheads
  rw [h.pendingCommits] at hcommits
  obtain ⟨full', hwritten'⟩ : ∃ full', Written serde full delta toTip full' ∧
      full'.heads = next.heads ∧ full'.pendingCommits = next.pendingCommits ∧
      full'.rollbackHeads = headRows ∧ full'.rollbackCommits = commitRows :=
    ⟨{ full with
        heads := next.heads
        pendingCommits := next.pendingCommits
        rollbackHeads := headRows
        rollbackCommits := commitRows
        rollbackBlocks := full.rollbackBlocks.insert toTip.height
          ⟨toTip.hash, delta.fromTip.map ReducerTip.height, delta.fromTip.map ReducerTip.hash⟩
        tipHeight := some toTip.height
        tipHash := some toTip.hash }, ⟨hheads, hcommits, rfl⟩, rfl, rfl, rfl, rfl⟩
  obtain ⟨hwritten', hheads', hcommits', hheadRows', hcommitRows'⟩ := hwritten'
  refine ⟨full', (applyDelta_eq_ok_iff_written hserde).2 ⟨htip, toTip, hadmissible, hfresh,
    hwritten'⟩, ?_, ?_, ?_, hheads'.symm, hcommits'.symm, fun height hmem ↦ ?_, fun height ↦ ?_,
    fun height ↦ ?_⟩
  · rw [hwritten.frame, hwritten'.frame]
    exact h.identity
  · rw [hwritten.frame, hwritten'.frame]
  · rw [hwritten.frame, hwritten'.frame]
  · rw [hwritten.getElem?_rollbackBlocks, hwritten'.getElem?_rollbackBlocks]
    split
    · rfl
    · rename_i hne
      exact h.blocks height ((hwritten.mem_rollbackBlocks.1 hmem).resolve_left hne)
  · by_cases hat : height = toTip.height
    · rw [hat, hheadRows', if_pos (hwritten.mem_rollbackBlocks.2 (Or.inl rfl)), hsameHeads]
    · rw [hwritten.rollbackHeads_rows hat, hwritten'.rollbackHeads_rows hat, h.headRows]
      exact if_congr (by rw [hwritten.mem_rollbackBlocks, or_iff_right (Ne.symm hat)]) rfl rfl
  · by_cases hat : height = toTip.height
    · rw [hat, hcommitRows', if_pos (hwritten.mem_rollbackBlocks.2 (Or.inl rfl)), hsameCommits]
    · rw [hwritten.rollbackCommits_rows hat, hwritten'.rollbackCommits_rows hat, h.commitRows]
      exact if_congr (by rw [hwritten.mem_rollbackBlocks, or_iff_right (Ne.symm hat)]) rfl rfl

/-- **A journaled block is undone.** -/
theorem rollbackTip {full' : Store B} (h : PrunedFrom full' store) (hserde : serde.RoundTrips)
    {identity : StoreIdentity} {deltas : List StateDelta} {delta : StateDelta} {toTip : ReducerTip}
    (hfull : Replayed identity deltas full) (happly : full.applyDelta serde delta = .ok full')
    (htoTip : delta.toTip = some toTip) (hmem : toTip.height ∈ store.rollbackBlocks) :
    ∃ restored, store.rollbackTip serde toTip.hash = .ok (delta.fromTip, restored) ∧
      PrunedFrom full restored ∧ ∀ height, height ∈ restored.rollbackBlocks ↔
        height ∈ store.rollbackBlocks ∧ height ≠ toTip.height := by
  obtain ⟨htip, toTip', hadmissible, hnew, hwritten⟩ :=
    (applyDelta_eq_ok_iff_written hserde).1 happly
  obtain rfl : toTip = toTip' := Option.some.inj (htoTip.symm.trans hadmissible.toTip_eq)
  have hread : store.readTip = .ok (some toTip) := by
    rw [h.readTip, hwritten.frame]
    rfl
  have hrow : store.rollbackBlocks[toTip.height]? = some ⟨toTip.hash,
      delta.fromTip.map ReducerTip.height, delta.fromTip.map ReducerTip.hash⟩ := by
    rw [h.blocks _ hmem, hwritten.getElem?_rollbackBlocks, if_pos rfl]
  have hheadRows : store.rollbackHeads.rows toTip.height = full'.rollbackHeads.rows
    toTip.height := by
    rw [h.headRows, if_pos hmem]
  have hcommitRows :
      store.rollbackCommits.rows toTip.height = full'.rollbackCommits.rows toTip.height := by
    rw [h.commitRows, if_pos hmem]
  have hidentity : store.identity = full.identity := by
    rw [h.identity, hwritten.frame]
  have hheadsEmpty := hfull.headOrphans _ hnew
  have hcommitsEmpty := hfull.commitOrphans _ hnew
  have hrestores : ∀ nameId bytes,
      (nameId, some bytes) ∈ (store.rollbackHeads.rows toTip.height).toList →
        Restores serde store.identity.network (delta.fromTip.map ReducerTip.height)
          nameId bytes := by
    intro nameId bytes hrow
    rw [hheadRows] at hrow
    rw [hidentity]
    exact hwritten.restores hserde hadmissible hheadsEmpty hrow
  refine ⟨_, rollbackTip_eq_ok_iff.2 ⟨toTip, _, _, hread, rfl, hrow, rfl,
    decodeOptionalTip_map delta.fromTip, foldlM_restoreHeadRow hrestores, rfl⟩, ?_⟩
  rw [foldl_writeCommit]
  obtain ⟨htipHeight, htipHash⟩ := decodeOptionalTip_eq_ok_iff.1 htip
  refine ⟨⟨hidentity, htipHeight.symm, htipHash.symm, ?_, ?_, fun height hin ↦ ?_,
    fun height ↦ ?_, fun height ↦ ?_⟩, fun height ↦
      Journaled.mem_kept.trans (and_congr_right fun _ ↦ decide_eq_true_iff)⟩
  · show OrderedMap.putAll store.heads _ = _
    rw [h.heads, hheadRows, hwritten.putAll_heads hserde hheadsEmpty]
  · show OrderedMap.putAll store.pendingCommits _ = _
    rw [h.pendingCommits, hcommitRows, hwritten.putAll_commits hcommitsEmpty]
  · have hold := Journaled.mem_kept.1 hin
    have hne : ¬ toTip.height = height := fun heq ↦ by simp [heq] at hold
    show (ExtTreeMap.filter _ store.rollbackBlocks)[height]? = _
    rw [ExtTreeMap.getElem?_filter', h.blocks height hold.1, hwritten.getElem?_rollbackBlocks,
      if_neg hne]
    rcases full.rollbackBlocks[height]? with - | row
    · rfl
    · exact if_pos hold.2
  · exact rows_cascade_kept h.headRows
      (fun other hkept ↦ hwritten.rollbackHeads_rows (of_decide_eq_true hkept)) height
  · exact rows_cascade_kept h.commitRows
      (fun other hkept ↦ hwritten.rollbackCommits_rows (of_decide_eq_true hkept)) height

end PrunedFrom

end Store

/-! ### Rewinding -/

/-- The block of a delta is at most at a height. -/
def StateDelta.upTo (height : U32) (delta : StateDelta) : Bool :=
  delta.toTip.all fun tip ↦ tip.height ≤ height

namespace Store.Replayed

variable {identity : StoreIdentity} {live : List StateDelta} {full : Store B} {delta : StateDelta}
  {toTip : ReducerTip}

/-- The next block is the highest. -/
theorem below_next (h : Replayed identity live full) (htip : full.readTip = .ok delta.fromTip)
    (hadmissible : delta.Admissible identity toTip) :
    ∀ other ∈ live, ∃ tip, other.toTip = some tip ∧ tip.height < toTip.height := by
  intro other hother
  obtain ⟨tip, top, htip', htop, hle⟩ := h.top other hother
  exact ⟨tip, htip', hle.trans_lt ((h.fresh htip hadmissible).1 top htop)⟩

theorem filter_upTo_concat (h : Replayed identity live full)
    (htip : full.readTip = .ok delta.fromTip) (hadmissible : delta.Admissible identity toTip)
    (bound : U32) : (live ++ [delta]).filter (StateDelta.upTo bound) =
      if toTip.height ≤ bound then live ++ [delta] else live.filter (StateDelta.upTo bound) := by
  split
  · rename_i hle
    refine List.filter_eq_self.2 fun other hmem ↦ ?_
    rcases List.mem_append.1 hmem with hold | hlast
    · obtain ⟨tip, htip', hlt⟩ := h.below_next htip hadmissible other hold
      rw [StateDelta.upTo, htip']
      exact decide_eq_true (hlt.le.trans hle)
    · rw [List.mem_singleton.1 hlast, StateDelta.upTo, hadmissible.toTip_eq]
      exact decide_eq_true hle
  · rename_i hlt
    rw [List.filter_append, List.filter_cons_of_neg, List.filter_nil, List.append_nil]
    rw [StateDelta.upTo, hadmissible.toTip_eq]
    simpa using hlt

end Store.Replayed

namespace WalletStore

variable {serde : Serde B HeadRecord} {identity : StoreIdentity} {store next : WalletStore B}

/-- The block of a delta is journaled. -/
def Journals (store : WalletStore B) (delta : StateDelta) : Prop :=
  ∀ tip, delta.toTip = some tip → tip.height ∈ store.rollbackBlocks

/-- The tables are those of a replay, with a part of its journal. -/
def Tracks (serde : Serde B HeadRecord) (identity : StoreIdentity) (deltas : List StateDelta)
    (store : WalletStore B) : Prop :=
  ∃ full, Store.replay serde identity deltas = .ok full ∧ Store.PrunedFrom full store.toStore

theorem rollbackTip_of_ok {tip : ReducerTip} {previous : Option ReducerTip} {tables : Store B}
    (htip : store.tip = .ok (some tip))
    (h : store.toStore.rollbackTip serde tip.hash = .ok (previous, tables)) :
    ∃ tables', store.rollbackTip serde = (.ok previous, store.withTables tables') ∧
      tables.Same tables' := by
  have hhash : ∀ other, store.toStore.readTip = .ok (some other) → tip.hash = other.hash := by
    intro other hother
    rw [Option.some.inj (Except.ok.inj (htip.symm.trans hother))]
  rcases @rollbackTip_agrees _ B serde store _ hhash with
    ⟨e, failed, hfailed, -⟩ | ⟨previous', tables', next', htables, hrolled, hsame⟩
  · rw [h] at hfailed
    exact absurd hfailed (by simp)
  · rw [h, Except.ok.injEq, Prod.mk.injEq] at htables
    obtain ⟨rfl, rfl⟩ := htables
    exact ⟨next', hrolled, hsame⟩

theorem rollbackTip_of_missing {tip : ReducerTip} (htip : store.tip = .ok (some tip))
    (h : tip.height ∉ store.rollbackBlocks) :
    store.rollbackTip serde = (.error .missingRollbackJournal, store) := by
  rw [rollbackTip, htip]
  dsimp only
  rw [ExtTreeMap.getElem?_eq_none h]
  rfl

theorem rollbackAbove_of_le {height : U32} {tip : Option ReducerTip} (htip : store.tip = .ok tip)
    (h : ∀ top, tip = some top → top.height ≤ height) :
    rollbackAbove serde height store = (.ok (), store) := by
  rw [rollbackAbove.eq_def, htip]
  refine if_neg fun hany ↦ ?_
  obtain ⟨top, htop, hlt⟩ := (Option.any_eq_true _ _).1 hany
  exact absurd (h top htop) (not_le.2 (of_decide_eq_true hlt))

theorem rollbackAbove_of_lt {height : U32} {tip : ReducerTip} (htip : store.tip = .ok (some tip))
    (h : height < tip.height) : rollbackAbove serde height store =
      match store.rollbackTip serde with
      | (.error e, next) => (.error e, next)
      | (.ok _, next) => rollbackAbove serde height next := by
  rw [rollbackAbove.eq_def, htip]
  dsimp only
  rw [if_pos (by simpa using h)]
  split
  · rename_i hstep
    rw [hstep]
  · rename_i hstep
    rw [hstep]

/-- **The loop of a rewind** undoes the journaled blocks above the height, or stops at a block that
is not journaled. -/
theorem rollbackAbove_spec (hserde : serde.RoundTrips) {live : List StateDelta}
    (h : Tracks serde identity live store) (height : U32) :
    (∃ next, rollbackAbove serde height store = (.ok (), next) ∧
      (∀ delta ∈ live, delta.upTo height = false → store.Journals delta) ∧
      Tracks serde identity (live.filter (StateDelta.upTo height)) next) ∨
    ∃ next, rollbackAbove serde height store = (.error .missingRollbackJournal, next) ∧
      (∃ delta ∈ live, delta.upTo height = false ∧ ¬ store.Journals delta) ∧
      ∃ tip, next.tip = .ok (some tip) ∧ (∃ delta ∈ live, delta.toTip = some tip) ∧
        Tracks serde identity (live.filter (StateDelta.upTo tip.height)) next := by
  induction live using List.reverseRecOn generalizing store with
  | nil =>
    obtain ⟨full, hfull, hpruned⟩ := h
    have htip : store.tip = .ok none := by
      rw [show store.tip = full.readTip from hpruned.readTip, (Store.replayed hserde hfull).tip]
      rfl
    exact Or.inl ⟨store, rollbackAbove_of_le htip fun top htop ↦ absurd htop (by simp),
      fun delta hmem ↦ absurd hmem List.not_mem_nil, full, hfull, hpruned⟩
  | append_singleton live delta ih =>
    obtain ⟨full', hfull', hpruned⟩ := h
    obtain ⟨full, hfull, happly⟩ := Store.replay_concat_eq_ok_iff.1 hfull'
    have hbefore := Store.replayed hserde hfull
    have hafter := Store.replayed hserde hfull'
    obtain ⟨htip, toTip, hadmissible, -, -⟩ :=
      (Store.applyDelta_eq_ok_iff_written hserde).1 happly
    rw [hbefore.identity_eq] at hadmissible
    have htoTip := hadmissible.toTip_eq
    have hread : store.tip = .ok (some toTip) := by
      rw [show store.tip = full'.readTip from hpruned.readTip, hafter.tip, List.getLast?_concat]
      exact congrArg _ htoTip
    have hbelow := hbefore.below_next htip hadmissible
    have hfilter := fun bound ↦ hbefore.filter_upTo_concat htip hadmissible bound
    rcases le_or_gt toTip.height height with hle | habove
    · -- no block lies above the height
      refine Or.inl ⟨store, rollbackAbove_of_le hread fun top htop ↦ ?_,
        fun other hmem hout ↦ ?_, ?_⟩
      · rw [← Option.some.inj htop]
        exact hle
      · have hall := (hfilter height).trans (if_pos hle)
        rw [List.filter_eq_self.1 hall other hmem] at hout
        exact absurd hout (by simp)
      · rw [hfilter, if_pos hle]
        exact ⟨full', hfull', hpruned⟩
    have hout : delta.upTo height = false := by
      rw [StateDelta.upTo, htoTip]
      simpa using habove
    rw [rollbackAbove_of_lt hread habove]
    by_cases hmem : toTip.height ∈ store.rollbackBlocks
    · -- the block on top is undone
      obtain ⟨tables, hroll, hrestored, hblocks⟩ :=
        hpruned.rollbackTip hserde hbefore happly htoTip hmem
      obtain ⟨tables', hstep, hsame⟩ := rollbackTip_of_ok hread hroll
      rw [hstep]
      dsimp only
      have hjournals : ∀ other ∈ live,
          (store.withTables tables').Journals other ↔ store.Journals other := by
        intro other hother
        obtain ⟨tip, htip', hlt⟩ := hbelow other hother
        refine forall_congr' fun tip' ↦ forall_congr' fun htip'' ↦ ?_
        rw [← Option.some.inj (htip'.symm.trans htip''),
          show (store.withTables tables').rollbackBlocks = tables.rollbackBlocks from
            hsame.rollbackBlocks.symm, hblocks]
        exact and_iff_left hlt.ne
      have htracks : Tracks serde identity live (store.withTables tables') :=
        ⟨full, hfull, hrestored.of_same hsame⟩
      rcases ih htracks with
        ⟨next, hloop, hall, htracks⟩ | ⟨next, hloop, ⟨other, hother, hout', hmissing⟩, tip, htip',
          ⟨last, hlast, hlastTip⟩, htracks⟩
      · refine Or.inl ⟨next, hloop, fun other hother hout' ↦ ?_, ?_⟩
        · rcases List.mem_append.1 hother with hold | hlast
          · exact (hjournals other hold).1 (hall other hold hout')
          · intro tip htip'
            rw [List.mem_singleton.1 hlast, htoTip] at htip'
            rw [← Option.some.inj htip']
            exact hmem
        · rw [hfilter, if_neg (not_le.2 habove)]
          exact htracks
      · refine Or.inr ⟨next, hloop, ⟨other, List.mem_append_left _ hother, hout',
          fun hin ↦ hmissing ((hjournals other hother).2 hin)⟩, tip, htip',
          ⟨last, List.mem_append_left _ hlast, hlastTip⟩, ?_⟩
        obtain ⟨tip'', htip'', hlt⟩ := hbelow last hlast
        rw [Option.some.inj (htip''.symm.trans hlastTip)] at hlt
        rw [hfilter, if_neg (not_le.2 hlt)]
        exact htracks
    · -- the block on top is not journaled
      rw [rollbackTip_of_missing hread hmem]
      refine Or.inr ⟨store, rfl, ⟨delta, List.mem_append_right _ List.mem_cons_self, hout,
        fun hin ↦ hmem (hin toTip htoTip)⟩, toTip, hread,
        ⟨delta, List.mem_append_right _ List.mem_cons_self, htoTip⟩, ?_⟩
      rw [hfilter, if_pos le_rfl]
      exact ⟨full', hfull', hpruned⟩

/-! ### What a rewind leaves alone -/

/-- The staged Core snapshot and the private table are the same. -/
def SameAside (store next : WalletStore B) : Prop :=
  next.coreSnapshot = store.coreSnapshot ∧ next.walletCommits = store.walletCommits

theorem restoreHeads_aside {height : U32} {previousTip : Option ReducerTip}
    {rows : List (NameId × Option B)} (hrows : (store.rollbackHeads.rows height).toList = rows) :
    store.SameAside (restoreHeads serde height previousTip store).2 := by
  induction rows generalizing store with
  | nil =>
    rw [restoreHeads_of_nil hrows]
    exact ⟨rfl, rfl⟩
  | cons row rows ih =>
    obtain ⟨nameId, previous⟩ := row
    rw [restoreHeads_of_cons hrows]
    split
    · exact ⟨rfl, rfl⟩
    · split
      · exact ⟨rfl, rfl⟩
      · refine ih ?_
        rw [deleteRollbackHead, ChildTable.rows_delete, if_pos rfl]
        exact OrderedMap.toList_erase_least hrows

theorem rollbackTip_aside (serde : Serde B HeadRecord) (store : WalletStore B) :
    store.SameAside (store.rollbackTip serde).2 := by
  rw [rollbackTip]
  split
  · exact ⟨rfl, rfl⟩
  · exact ⟨rfl, rfl⟩
  rename_i tip _
  split
  · exact ⟨rfl, rfl⟩
  split
  · exact ⟨rfl, rfl⟩
  rename_i previousTip _
  have hheads : store.SameAside (restoreHeads serde tip.height previousTip store).2 :=
    restoreHeads_aside rfl
  split
  · rename_i hloop
    rw [hloop] at hheads
    exact hheads
  · rename_i restored hloop
    rw [hloop] at hheads
    obtain ⟨drained, hcommits, -⟩ :=
      restoreCommits_spec (rfl : (restored.rollbackCommits.rows tip.height).toList = _)
    rw [hcommits]
    exact hheads

theorem rollbackAbove_aside (serde : Serde B HeadRecord) (height : U32) (store : WalletStore B) :
    store.SameAside (rollbackAbove serde height store).2 := by
  induction hsize : store.rollbackBlocks.size using Nat.strong_induction_on generalizing store with
  | _ size ih =>
    have hstep := rollbackTip_aside serde store
    rw [rollbackAbove.eq_def]
    split
    · exact ⟨rfl, rfl⟩
    split
    · split
      · rename_i heq
        rw [heq] at hstep
        exact hstep
      · -- the rest of the loop has fewer rows
        rename_i heq
        have hlt := size_rollbackTip heq
        rw [heq] at hstep
        obtain ⟨hsnapshot, hcommits⟩ := ih _ (hsize ▸ hlt) _ rfl
        exact ⟨hsnapshot.trans hstep.1, hcommits.trans hstep.2⟩
    · exact ⟨rfl, rfl⟩

/-- A rewind by the journal keeps the private table. -/
theorem rollbackToHeight_walletCommits (serde : Serde B HeadRecord) (height : U32)
    (store : WalletStore B) :
    (store.rollbackToHeight serde height).2.walletCommits = store.walletCommits := by
  have hloop := (rollbackAbove_aside serde height store).2
  rw [rollbackToHeight]
  split
  · rfl
  split
  · rename_i heq
    rw [heq] at hloop
    exact hloop
  · rename_i heq
    rw [heq] at hloop
    split
    · exact hloop
    · dsimp only
      split
      · exact hloop
      · exact hloop

theorem rollbackToHeightOrReset_of_ok {height : U32} {tip : Option ReducerTip}
    (h : store.rollbackToHeight serde height = (.ok tip, next)) :
    store.rollbackToHeightOrReset serde height = (.ok tip, next.forgetCommitsAbove height) := by
  rw [rollbackToHeightOrReset, h]

theorem rollbackToHeightOrReset_of_missing {height : U32}
    (h : store.rollbackToHeight serde height = (.error .missingRollbackJournal, next)) :
    store.rollbackToHeightOrReset serde height =
      (.ok none, next.resetForReplay.forgetCommitsAbove height) := by
  rw [rollbackToHeightOrReset, h]

theorem rollbackToHeightOrReset_of_error {height : U32} {e : StoreError}
    (h : store.rollbackToHeight serde height = (.error e, next))
    (he : e ≠ .missingRollbackJournal) :
    store.rollbackToHeightOrReset serde height = (.error e, next) := by
  rw [rollbackToHeightOrReset, h]
  cases e
  case missingRollbackJournal => exact absurd rfl he
  all_goals rfl

theorem rollbackToHeightOrReset_walletCommits_of_error {height : U32} {e : StoreError}
    (h : store.rollbackToHeightOrReset serde height = (.error e, next)) :
    next.walletCommits = store.walletCommits := by
  have hrewind := rollbackToHeight_walletCommits serde height store
  rcases heq : store.rollbackToHeight serde height with ⟨e' | result, rewound⟩
  · rw [heq] at hrewind
    by_cases he : e' = .missingRollbackJournal
    · rw [he] at heq
      rw [rollbackToHeightOrReset_of_missing heq] at h
      exact absurd (congrArg Prod.fst h) (by simp)
    · rw [rollbackToHeightOrReset_of_error heq he] at h
      rw [← (Prod.mk.inj h).2]
      exact hrewind
  · rw [rollbackToHeightOrReset_of_ok heq] at h
    exact absurd (congrArg Prod.fst h) (by simp)

/-- A rewind with a reset forgets the private rows above the height. -/
theorem rollbackToHeightOrReset_walletCommits {height : U32} {tip : Option ReducerTip}
    (h : store.rollbackToHeightOrReset serde height = (.ok tip, next)) :
    next.walletCommits =
      store.walletCommits.filter fun _ reference ↦ reference.height ≤ height := by
  have hrewind := rollbackToHeight_walletCommits serde height store
  rcases heq : store.rollbackToHeight serde height with ⟨e | result, rewound⟩
  · rw [heq] at hrewind
    by_cases he : e = .missingRollbackJournal
    · rw [he] at heq
      rw [rollbackToHeightOrReset_of_missing heq] at h
      rw [← (Prod.mk.inj h).2, ← hrewind]
      rfl
    · rw [rollbackToHeightOrReset_of_error heq he] at h
      exact absurd (congrArg Prod.fst h) (by simp)
  · rw [heq] at hrewind
    rw [rollbackToHeightOrReset_of_ok heq] at h
    rw [← (Prod.mk.inj h).2, ← hrewind]
    rfl

/-! ### Every reachable store -/

/-- **A rewind by the journal**, of a store that follows a replay. -/
theorem rollbackToHeight_spec (hserde : serde.RoundTrips) {live : List StateDelta}
    (h : Tracks serde identity live store) (height : U32) :
    (∃ tip next, store.rollbackToHeight serde height = (.ok tip, next) ∧
      (∀ delta ∈ live, delta.upTo height = false → store.Journals delta) ∧
      Tracks serde identity (live.filter (StateDelta.upTo height)) next ∧ next.tip = .ok tip ∧
      (next.tip = store.tip → next.coreSnapshot = store.coreSnapshot) ∧
      (next.tip ≠ store.tip → next.coreSnapshot = none)) ∨
    ∃ next, store.rollbackToHeight serde height = (.error .missingRollbackJournal, next) ∧
      (∃ delta ∈ live, delta.upTo height = false ∧ ¬ store.Journals delta) ∧
      ∃ tip, next.tip = .ok (some tip) ∧
        Tracks serde identity (live.filter (StateDelta.upTo tip.height)) next := by
  have htips : ∀ {deltas : List StateDelta} {wallet : WalletStore B},
      Tracks serde identity deltas wallet → ∃ tip, wallet.tip = .ok tip := by
    rintro deltas wallet ⟨full, hfull, hpruned⟩
    exact ⟨_, hpruned.readTip.trans (Store.replayed hserde hfull).tip⟩
  obtain ⟨originalTip, horiginal⟩ := htips h
  have haside := rollbackAbove_aside serde height store
  rw [rollbackToHeight, horiginal]
  dsimp only
  rcases rollbackAbove_spec hserde h height with
    ⟨next, hloop, hall, htracks⟩ | ⟨next, hloop, hmissing, tip, htip, -, htracks⟩
  · obtain ⟨tip, htip⟩ := htips htracks
    rw [hloop] at haside ⊢
    dsimp only
    rw [htip]
    dsimp only
    by_cases hmoved : tip = originalTip
    · -- no block was undone
      rw [if_neg (not_not.2 hmoved)]
      refine Or.inl ⟨tip, next, by rw [htip], hall, htracks, htip, fun _ ↦ haside.1, fun hne ↦ ?_⟩
      rw [htip, hmoved] at hne
      exact absurd rfl hne
    · rw [if_pos hmoved]
      have htip' : next.clearCoreSnapshot.tip = .ok tip := htip
      refine Or.inl ⟨tip, next.clearCoreSnapshot, by rw [htip'], hall, htracks, htip',
        fun heq ↦ ?_, fun _ ↦ rfl⟩
      rw [htip', Except.ok.injEq] at heq
      exact absurd heq hmoved
  · rw [hloop]
    exact Or.inr ⟨next, rfl, hmissing, tip, htip, htracks⟩

/-- Give the store of a new wallet the deltas in order. -/
def replay (serde : Serde B HeadRecord) (identity : StoreIdentity) (deltas : List StateDelta) :
    Except StoreError (WalletStore B) :=
  deltas.foldlM (fun store delta ↦ store.applyDelta serde delta) (new identity)

theorem replay_eq (deltas : List StateDelta) : replay serde identity deltas =
    (Store.replay serde identity deltas).map (new identity).withTables := by
  have hstep : ∀ (tables : Store B) (delta : StateDelta),
      ((new identity).withTables tables).applyDelta serde delta =
        (tables.applyDelta serde delta).map (new identity).withTables := by
    intro tables delta
    rw [applyDelta_eq]
    rfl
  exact Except.foldlM_map hstep deltas (Store.new identity)

/-- The stores of a wallet, with the deltas of their blocks that were not rewound. The wallet can go
on from what a failed rewind left; a rewind that returns no tip leaves no block. Finalization
deletes the lower rows of the journal. -/
inductive Reached (serde : Serde B HeadRecord) (identity : StoreIdentity) :
    List StateDelta → WalletStore B → Prop
  | new : Reached serde identity [] (new identity)
  | applyDelta {live store delta next} (h : Reached serde identity live store)
      (happly : store.applyDelta serde delta = .ok next) :
      Reached serde identity (live ++ [delta]) next
  | putCoreSnapshot {live store} (h : Reached serde identity live store) (snapshot : List UInt8) :
      Reached serde identity live (store.putCoreSnapshot snapshot)
  | recordWalletCommit {live store commitment reference next}
      (h : Reached serde identity live store)
      (hrecord : store.recordWalletCommit commitment reference = .ok next) :
      Reached serde identity live next
  | resetForReplay {live store} (h : Reached serde identity live store) :
      Reached serde identity [] store.resetForReplay
  | rollbackToHeight {live store height tip next} (h : Reached serde identity live store)
      (hrewind : store.rollbackToHeight serde height = (.ok tip, next)) :
      Reached serde identity (live.filter (StateDelta.upTo height)) next
  | rollbackToHeight_failed {live store height e next tip} (h : Reached serde identity live store)
      (hrewind : store.rollbackToHeight serde height = (.error e, next))
      (htip : next.tip = .ok (some tip)) :
      Reached serde identity (live.filter (StateDelta.upTo tip.height)) next
  | rollbackToHeightOrReset {live store height tip next} (h : Reached serde identity live store)
      (hrewind : store.rollbackToHeightOrReset serde height = (.ok tip, next)) :
      Reached serde identity (if tip = none then [] else live.filter (StateDelta.upTo height)) next
  | pruneJournal {live store} (h : Reached serde identity live store) (height : U32)
      (finalizedHeight : Option U32) :
      Reached serde identity live
        { store.withTables (store.keepRollbackBlocks fun row ↦ height < row) with
          finalizedHeight := finalizedHeight }

/-- The replayable tables are empty, and the metadata row says so. -/
structure Blank (store : WalletStore B) : Prop where
  heads : store.heads = ∅
  pendingCommits : store.pendingCommits = ∅
  rollbackBlocks : store.rollbackBlocks = ∅
  rollbackHeads : store.rollbackHeads = ∅
  rollbackCommits : store.rollbackCommits = ∅
  tip : store.tip = .ok none
  finalizedHeight : store.finalizedHeight = none
  coreSnapshot : store.coreSnapshot = none

/-- A blank store follows the empty replay. -/
theorem Blank.tracks (h : store.Blank) (hidentity : store.identity = identity) :
    Tracks serde identity [] store := by
  obtain ⟨htipHeight, htipHash⟩ := decodeOptionalTip_eq_ok_iff.1 h.tip
  refine ⟨Store.new identity, rfl, hidentity, htipHeight, htipHash, h.heads, h.pendingCommits,
    fun height hmem ↦ ?_, fun height ↦ ?_, fun height ↦ ?_⟩
  · rw [h.rollbackBlocks] at hmem
    exact absurd hmem ExtTreeMap.not_mem_empty
  · rw [h.rollbackBlocks, if_neg ExtTreeMap.not_mem_empty, h.rollbackHeads]
    exact ChildTable.rows_empty height
  · rw [h.rollbackBlocks, if_neg ExtTreeMap.not_mem_empty, h.rollbackCommits]
    exact ChildTable.rows_empty height

theorem Tracks.identity_eq (hserde : serde.RoundTrips) {live : List StateDelta}
    (h : Tracks serde identity live store) : store.identity = identity := by
  obtain ⟨full, hfull, hpruned⟩ := h
  exact hpruned.identity.trans (Store.replayed hserde hfull).identity_eq

theorem Reached.of_replay {deltas : List StateDelta}
    (h : replay serde identity deltas = .ok store) :
    Reached serde identity deltas store := by
  induction deltas using List.reverseRecOn generalizing store with
  | nil =>
    rw [← Except.ok.inj h]
    exact .new
  | append_singleton deltas delta ih =>
    rw [replay, List.foldlM_append, Except.bind_eq_ok_iff] at h
    obtain ⟨before, hbefore, hlast⟩ := h
    rw [List.foldlM_cons, Except.bind_eq_ok_iff] at hlast
    obtain ⟨after, hafter, heq⟩ := hlast
    rw [Except.ok.inj heq] at hafter
    exact (ih hbefore).applyDelta hafter

/-- Without a tip no delta survives. -/
theorem Tracks.eq_nil (hserde : serde.RoundTrips) {live : List StateDelta}
    (h : Tracks serde identity live store) (htip : store.tip = .ok none) : live = [] := by
  obtain ⟨full, hfull, hpruned⟩ := h
  rcases live with - | ⟨delta, live⟩
  · rfl
  · obtain ⟨-, top, -, htop, -⟩ := (Store.replayed hserde hfull).top delta List.mem_cons_self
    have hsame := htip.symm.trans (hpruned.readTip.trans htop)
    exact absurd hsame (by simp)

/-- **A rewind with a reset**, of a store that follows a replay. -/
theorem rollbackToHeightOrReset_spec (hserde : serde.RoundTrips) {live : List StateDelta}
    (h : Tracks serde identity live store) (height : U32) :
    ∃ tip next, store.rollbackToHeightOrReset serde height = (.ok tip, next) ∧ next.tip = .ok tip ∧
      (((∀ delta ∈ live, delta.upTo height = false → store.Journals delta) ∧
        Tracks serde identity (live.filter (StateDelta.upTo height)) next ∧
        (next.tip = store.tip → next.coreSnapshot = store.coreSnapshot) ∧
        (next.tip ≠ store.tip → next.coreSnapshot = none)) ∨
      ((∃ delta ∈ live, delta.upTo height = false ∧ ¬ store.Journals delta) ∧
        Tracks serde identity [] next ∧ next.Blank)) := by
  rcases rollbackToHeight_spec hserde h height with
    ⟨tip, next, hrewind, hall, htracks, htip, hsame, hmoved⟩ | ⟨next, hrewind, hmissing, tip, -,
      htracks⟩
  · exact ⟨tip, next.forgetCommitsAbove height, rollbackToHeightOrReset_of_ok hrewind, htip,
      Or.inl ⟨hall, htracks, hsame, hmoved⟩⟩
  · have hblank : (next.resetForReplay.forgetCommitsAbove height).Blank :=
      ⟨rfl, rfl, rfl, rfl, rfl, rfl, rfl, rfl⟩
    have hidentity : next.identity = identity := htracks.identity_eq hserde
    exact ⟨none, next.resetForReplay.forgetCommitsAbove height,
      rollbackToHeightOrReset_of_missing hrewind, rfl,
      Or.inr ⟨hmissing, hblank.tracks hidentity, hblank⟩⟩

/-- **Every reachable store follows the replay of its surviving deltas.** -/
theorem Reached.tracks (hserde : serde.RoundTrips) {live : List StateDelta}
    (h : Reached serde identity live store) : Tracks serde identity live store := by
  induction h with
  | new =>
    have hblank : (WalletStore.new identity : WalletStore B).Blank :=
      ⟨rfl, rfl, rfl, rfl, rfl, rfl, rfl, rfl⟩
    exact hblank.tracks rfl
  | @applyDelta live store delta next _ happly ih =>
    obtain ⟨full, hfull, hpruned⟩ := ih
    rw [applyDelta_eq] at happly
    obtain ⟨tables, htables, rfl⟩ := Except.map_eq_ok_iff.1 happly
    obtain ⟨full', hfull', hpruned'⟩ :=
      hpruned.applyDelta hserde (Store.replayed hserde hfull) htables
    exact ⟨full', Store.replay_concat_eq_ok_iff.2 ⟨full, hfull, hfull'⟩, hpruned'⟩
  | putCoreSnapshot _ snapshot ih => exact ih
  | @recordWalletCommit live store commitment reference next _ hrecord ih =>
    have hsame : next.toStore = store.toStore := by
      rw [WalletStore.recordWalletCommit] at hrecord
      split at hrecord
      · split at hrecord
        · exact absurd hrecord (by simp)
        · rw [← Except.ok.inj hrecord]
      · rw [← Except.ok.inj hrecord]
    rw [Tracks, hsame]
    exact ih
  | @resetForReplay live store _ ih =>
    have hblank : store.resetForReplay.Blank := ⟨rfl, rfl, rfl, rfl, rfl, rfl, rfl, rfl⟩
    have hidentity : store.identity = identity := ih.identity_eq hserde
    exact hblank.tracks hidentity
  | @rollbackToHeight live store height tip next _ hrewind ih =>
    rcases rollbackToHeight_spec hserde ih height with
      ⟨tip', next', hrewind', -, htracks, -⟩ | ⟨next', hrewind', -⟩
    · rw [hrewind] at hrewind'
      rw [(Prod.mk.inj hrewind').2]
      exact htracks
    · rw [hrewind] at hrewind'
      exact absurd (congrArg Prod.fst hrewind') (by simp)
  | @rollbackToHeight_failed live store height e next tip _ hrewind htip ih =>
    rcases rollbackToHeight_spec hserde ih height with
      ⟨tip', next', hrewind', -⟩ | ⟨next', hrewind', -, tip', htip', htracks⟩
    · rw [hrewind] at hrewind'
      exact absurd (congrArg Prod.fst hrewind') (by simp)
    · rw [hrewind] at hrewind'
      rw [← (Prod.mk.inj hrewind').2] at htip' htracks
      rw [htip, Except.ok.injEq, Option.some.injEq] at htip'
      rw [htip']
      exact htracks
  | @rollbackToHeightOrReset live store height tip next _ hrewind ih =>
    obtain ⟨tip', next', hrewind', htip, hclean⟩ := rollbackToHeightOrReset_spec hserde ih height
    rw [hrewind, Prod.mk.injEq, Except.ok.injEq] at hrewind'
    obtain ⟨rfl, rfl⟩ := hrewind'
    rcases hclean with ⟨-, htracks, -⟩ | ⟨-, htracks, hblank⟩
    · split
      · rename_i hnone
        rw [hnone] at htip
        rw [htracks.eq_nil hserde htip] at htracks
        exact htracks
      · exact htracks
    · rw [if_pos (Except.ok.inj (htip.symm.trans hblank.tip))]
      exact htracks
  | pruneJournal _ height finalizedHeight ih =>
    obtain ⟨full, hfull, hpruned⟩ := ih
    have hkept := hpruned.keepRollbackBlocks fun row ↦ height < row
    exact ⟨full, hfull, hkept.identity, hkept.tipHeight, hkept.tipHash, hkept.heads,
      hkept.pendingCommits, hkept.blocks, hkept.headRows, hkept.commitRows⟩

end WalletStore

/-- **A rewind of a wallet ends clean.** From every reachable store, `rollback_to_height_or_reset`
succeeds: with every block above the height journaled it leaves the tables of a replay of the deltas
at or below it, and clears the Core snapshot when the tip moved; otherwise it leaves nothing. -/
theorem wallet_rewind_ends_clean {serde : Serde B HeadRecord} (hserde : serde.RoundTrips)
    {identity : StoreIdentity} {live : List StateDelta} {store : WalletStore B}
    (h : WalletStore.Reached serde identity live store) (height : U32) :
    ∃ tip next, store.rollbackToHeightOrReset serde height = (.ok tip, next) ∧ next.tip = .ok tip ∧
      (((∀ delta ∈ live, delta.upTo height = false → store.Journals delta) ∧
        (∃ survived, WalletStore.replay serde identity (live.filter (StateDelta.upTo height)) =
            .ok survived ∧
          next.heads = survived.heads ∧ next.pendingCommits = survived.pendingCommits ∧
          next.tip = survived.tip) ∧
        (next.tip = store.tip → next.coreSnapshot = store.coreSnapshot) ∧
        (next.tip ≠ store.tip → next.coreSnapshot = none)) ∨
      ((∃ delta ∈ live, delta.upTo height = false ∧ ¬ store.Journals delta) ∧ next.Blank)) := by
  obtain ⟨tip, next, hrewind, htip, hclean⟩ :=
    WalletStore.rollbackToHeightOrReset_spec hserde (h.tracks hserde) height
  refine ⟨tip, next, hrewind, htip, ?_⟩
  rcases hclean with ⟨hall, ⟨full, hfull, hpruned⟩, hsnapshot⟩ | ⟨hmissing, -, hblank⟩
  · refine Or.inl ⟨hall, ⟨(WalletStore.new identity).withTables full, ?_, hpruned.heads,
      hpruned.pendingCommits, hpruned.readTip⟩, hsnapshot⟩
    rw [WalletStore.replay_eq, hfull]
    rfl
  · exact Or.inr ⟨hmissing, hblank⟩

end Rewind

namespace Sample

/-- Three blocks, of which the last is journaled: a rewind by two blocks leaves nothing. -/
theorem wallet_rewind_ends_clean_spend : ∃ (store next : WalletStore HeadRecord) (tip : _),
    WalletStore.Reached recordSerde storeIdentity deltas store ∧
    store.rollbackToHeightOrReset recordSerde 0 = (.ok tip, next) ∧ next.Blank := by
  have hserde : recordSerde.RoundTrips := fun record ↦ ⟨record, rfl, rfl⟩
  have hreplay : (WalletStore.replay recordSerde storeIdentity deltas).toOption.isSome = true := by
    decide +kernel
  have hheights : deltas.map (fun delta ↦ delta.toTip.map ReducerTip.height) =
      [some 0, some 1, some 2] := by
    decide +kernel
  obtain ⟨full, hfull⟩ := Option.isSome_iff_exists.1 hreplay
  have hreached := (WalletStore.Reached.of_replay
    (Except.toOption_eq_some_iff.1 hfull)).pruneJournal
    1 none
  obtain ⟨tip, next, hrewind, -, hclean⟩ := wallet_rewind_ends_clean hserde hreached 0
  refine ⟨_, next, tip, hreached, hrewind, ?_⟩
  rcases hclean with ⟨hall, -⟩ | ⟨-, hblank⟩
  · -- the second block is not journaled
    obtain ⟨delta, hmem, hheight⟩ := List.mem_map.1 (show some (1 : U32) ∈ _ by
      rw [hheights]
      simp)
    obtain ⟨toTip, htoTip, hone⟩ := Option.map_eq_some_iff.1 hheight
    have habove : delta.upTo 0 = false := by
      rw [StateDelta.upTo, htoTip, Option.all_some, hone]
      rfl
    have hkept := Store.Journaled.mem_kept.1 (hall delta hmem habove toTip htoTip)
    rw [hone] at hkept
    exact absurd hkept.2 (by decide)
  · exact hblank

end Sample

end CoppiceNames
