import CoppiceNames.Library.Checked
import CoppiceNames.Store.Retention

/-!
# The wallet adapter of the store

`WalletNamesTransaction` of `coppice-names-sqlite`: the same tables, hosted by a transaction of the
wallet. `apply_delta` is written a second time; `rollback_tip` takes the journal rows one by one and
deletes them as it goes, where `SqliteNamesTransaction` collects them first and lets the foreign
keys delete them. Both do the same (`wallet_adapter_agrees`).

A rollback returns the tables after it, also when it fails: `rollback_to_height_or_reset` goes on
from the tables that a failed `rollback_to_height` left behind. What a failed `apply_delta` wrote is
dropped with the wallet's transaction. The two loops of `rollback_tip` end because every round
deletes a journal row.
-/

open Std

namespace CoppiceNames

section Wallet

variable [Primitives]

/-- The tables of the store, with the staged Core snapshot of the metadata row and the private table
of the wallet's own COMMITs. -/
structure WalletStore (B : Type) extends Store B where
  coreSnapshot : Option (List UInt8)
  walletCommits : OrderedMap Bytes32 CommitRef

namespace WalletStore

variable {B : Type} (serde : Serde B HeadRecord) (store : WalletStore B)

omit [Primitives] in
/-- The store after `initialize_wallet_connection` on a new database. -/
def new (identity : StoreIdentity) : WalletStore B :=
  { Store.new identity with
    coreSnapshot := none
    walletCommits := ∅ }

/-! ### Statements -/

/-- The wallet store with other tables of the shared schema. -/
def withTables (tables : Store B) : WalletStore B :=
  { tables with
    coreSnapshot := store.coreSnapshot
    walletCommits := store.walletCommits }

/-- `tip`. -/
def tip : Except StoreError (Option ReducerTip) :=
  decodeOptionalTip store.tipHeight store.tipHash

/-- `UPDATE metadata SET tip_height, tip_hash`. -/
def writeTip (tip : Option ReducerTip) : WalletStore B :=
  { store with tipHeight := tip.map ReducerTip.height, tipHash := tip.map ReducerTip.hash }

/-- `read_head`. -/
def readHead (nameId : NameId) : Option HeadRecord := store.heads[nameId]?

/-- `write_head`. -/
def writeHead (nameId : NameId) (record : Option HeadRecord) : WalletStore B :=
  { store with heads := OrderedMap.put store.heads nameId record }

/-- `read_commit`. -/
def readCommit (reference : CommitRef) : Option Bytes32 := store.pendingCommits[reference]?

/-- `write_commit`. -/
def writeCommit (reference : CommitRef) (commitment : Option Bytes32) : WalletStore B :=
  { store with pendingCommits := OrderedMap.put store.pendingCommits reference commitment }

/-- `DELETE FROM rollback_heads` of one row. -/
def deleteRollbackHead (height : U32) (nameId : NameId) : WalletStore B :=
  { store with rollbackHeads := store.rollbackHeads.delete height nameId }

/-- `DELETE FROM rollback_commits` of one row. -/
def deleteRollbackCommit (height : U32) (reference : CommitRef) : WalletStore B :=
  { store with rollbackCommits := store.rollbackCommits.delete height reference }

/-- `put_core_snapshot`. -/
def putCoreSnapshot (snapshot : List UInt8) : WalletStore B :=
  { store with coreSnapshot := some snapshot }

/-- `reset_for_replay`. -/
def resetForReplay : WalletStore B :=
  { store with
    rollbackHeads := ∅
    rollbackCommits := ∅
    rollbackBlocks := ∅
    pendingCommits := ∅
    heads := ∅
    tipHeight := none
    tipHash := none
    finalizedHeight := none
    coreSnapshot := none }

/-! ### Deltas -/

/-- One step of the loop over the head changes of a delta. -/
def applyHeadChange (fromTip : Option ReducerTip) (toTip : ReducerTip) (store : WalletStore B)
    (change : HeadChange) : Except StoreError (WalletStore B) := do
  validateRecord change.nameId (change.previous.map Head.store) store.identity.network
    (fromTip.map ReducerTip.height)
  validateRecord change.nameId (change.current.map Head.store) store.identity.network
    (some toTip.height)
  ensure (store.readHead change.nameId = change.previous.map Head.store)
    .authoritativeRecordMismatch
  let previous ← Store.encodeRecord serde (change.previous.map Head.store)
  let tables ← store.insertRollbackHead toTip.height change.nameId previous
  return (store.withTables tables).writeHead change.nameId (change.current.map Head.store)

/-- One step of the loop over the COMMIT changes of a delta. -/
def applyCommitChange (toTip : ReducerTip) (store : WalletStore B) (change : CommitChange) :
    Except StoreError (WalletStore B) := do
  ensure (store.readCommit change.reference = change.previous.map Commitment.bytes)
    .authoritativeRecordMismatch
  let tables ← store.insertRollbackCommit toTip.height change.reference
    (change.previous.map Commitment.bytes)
  return (store.withTables tables).writeCommit change.reference
    (change.current.map Commitment.bytes)

/-- `apply_delta`. -/
def applyDelta (delta : StateDelta) : Except StoreError (WalletStore B) := do
  let tip ← store.tip
  ensure (tip = delta.fromTip) .tipMismatch
  let toTip ← okOr delta.toTip .nonSequentialDelta
  ensure (delta.fromTip.all fun tip ↦
    U32.checkedAdd tip.height 1 = some toTip.height ∧ tip.hash ≠ toTip.hash) .nonSequentialDelta
  ensure (store.identity.coverage.admits delta.heads) .coverageViolation
  let tables ← store.insertRollbackBlock toTip.height
    ⟨toTip.hash, delta.fromTip.map ReducerTip.height, delta.fromTip.map ReducerTip.hash⟩
  let store ← delta.heads.foldlM (applyHeadChange serde delta.fromTip toTip)
    (store.withTables tables)
  let store ← delta.commits.foldlM (applyCommitChange toTip) store
  return store.writeTip (some toTip)

/-- `record_wallet_commit`. -/
def recordWalletCommit (commitment : Bytes32) (reference : CommitRef) :
    Except StoreError (WalletStore B) :=
  match store.walletCommits[commitment]? with
  | some value => if value ≠ reference then .error .authoritativeRecordMismatch else .ok store
  | none => .ok { store with walletCommits := store.walletCommits.insert commitment reference }

/-! ### Rolling back one block -/

/-- A record of the journal, read back. -/
def decodeRecord (previous : Option B) : Except StoreError (Option HeadRecord) :=
  match previous with
  | none => .ok none
  | some bytes => (okOr (serde.fromSlice bytes) .encoding).map some

/-- The first loop of `rollback_tip`: the least row of the block is restored and deleted. -/
def restoreHeads (height : U32) (previousTip : Option ReducerTip) (store : WalletStore B) :
    Except StoreError Unit × WalletStore B :=
  match _hrow : (store.rollbackHeads.rows height).toList with
  | [] => (.ok (), store)
  | (nameId, previous) :: _ =>
    match decodeRecord serde previous with
    | .error e => (.error e, store)
    | .ok record =>
      match validateRecord nameId record store.identity.network
          (previousTip.map ReducerTip.height) with
      | .error e => (.error e, store)
      | .ok () => restoreHeads height previousTip
          ((store.writeHead nameId record).deleteRollbackHead height nameId)
termination_by (store.rollbackHeads.rows height).size
decreasing_by
  rw [deleteRollbackHead, ChildTable.rows_delete, if_pos rfl]
  exact OrderedMap.size_erase_lt (OrderedMap.mem_of_toList_eq_cons _hrow)

/-- The second loop of `rollback_tip`. -/
def restoreCommits (height : U32) (store : WalletStore B) : WalletStore B :=
  match _hrow : (store.rollbackCommits.rows height).toList with
  | [] => store
  | (reference, previous) :: _ => restoreCommits height
      ((store.writeCommit reference previous).deleteRollbackCommit height reference)
termination_by (store.rollbackCommits.rows height).size
decreasing_by
  rw [deleteRollbackCommit, ChildTable.rows_delete, if_pos rfl]
  exact OrderedMap.size_erase_lt (OrderedMap.mem_of_toList_eq_cons _hrow)

/-- `rollback_tip`. -/
def rollbackTip : Except StoreError (Option ReducerTip) × WalletStore B :=
  match store.tip with
  | .error e => (.error e, store)
  | .ok none => (.error .missingRollbackJournal, store)
  | .ok (some tip) =>
    match store.rollbackBlocks[tip.height]?.filter fun row ↦ row.hash = tip.hash with
    | none => (.error .missingRollbackJournal, store)
    | some row =>
      match decodeOptionalTip row.previousTipHeight row.previousTipHash with
      | .error e => (.error e, store)
      | .ok previousTip =>
        match restoreHeads serde tip.height previousTip store with
        | (.error e, restored) => (.error e, restored)
        | (.ok (), restored) =>
          let restored := restoreCommits tip.height restored
          let deleted := restored.withTables
            (restored.keepRollbackBlocks fun height ↦ height ≠ tip.height)
          (.ok previousTip, deleted.writeTip previousTip)

/-! ### The two adapters -/

variable {serde store}

/-- A head change is applied as by the other adapter. -/
theorem applyHeadChange_withTables (fromTip : Option ReducerTip) (toTip : ReducerTip)
    (tables : Store B) (change : HeadChange) :
    applyHeadChange serde fromTip toTip (store.withTables tables) change =
      (Store.applyHeadChange serde fromTip toTip tables change).map store.withTables := by
  rw [applyHeadChange, Store.applyHeadChange]
  refine Except.bind_eq_map_bind fun _ ↦ Except.bind_eq_map_bind fun _ ↦
    Except.bind_eq_map_bind fun _ ↦ Except.bind_eq_map_bind fun _ ↦ ?_
  exact Except.bind_eq_map_bind fun _ ↦ rfl

omit [Primitives] in
theorem applyCommitChange_withTables (toTip : ReducerTip) (tables : Store B)
    (change : CommitChange) :
    applyCommitChange toTip (store.withTables tables) change =
      (Store.applyCommitChange toTip tables change).map store.withTables := by
  rw [applyCommitChange, Store.applyCommitChange]
  exact Except.bind_eq_map_bind fun _ ↦ Except.bind_eq_map_bind fun _ ↦ rfl

/-- **Deltas.** -/
theorem applyDelta_eq (delta : StateDelta) : store.applyDelta serde delta =
    (store.toStore.applyDelta serde delta).map store.withTables := by
  rw [applyDelta, Store.applyDelta]
  refine Except.bind_eq_map_bind fun _ ↦ Except.bind_eq_map_bind fun _ ↦
    Except.bind_eq_map_bind fun toTip ↦ Except.bind_eq_map_bind fun _ ↦
      Except.bind_eq_map_bind fun _ ↦ Except.bind_eq_map_bind fun tables ↦ ?_
  rw [Except.foldlM_map (applyHeadChange_withTables delta.fromTip toTip)]
  refine Except.map_bind_eq_map_bind fun written ↦ ?_
  rw [Except.foldlM_map (applyCommitChange_withTables toTip)]
  exact Except.map_bind_eq_map_bind fun committed ↦ rfl

theorem restoreHeads_of_nil {height : U32} {previousTip : Option ReducerTip}
    (h : (store.rollbackHeads.rows height).toList = []) :
    restoreHeads serde height previousTip store = (.ok (), store) := by
  rw [restoreHeads.eq_def]
  split
  · rfl
  · rename_i hcons
    exact absurd (h.symm.trans hcons) (by simp)

theorem restoreHeads_of_cons {height : U32} {previousTip : Option ReducerTip} {nameId : NameId}
    {previous : Option B} {rows : List (NameId × Option B)}
    (h : (store.rollbackHeads.rows height).toList = (nameId, previous) :: rows) :
    restoreHeads serde height previousTip store =
      match decodeRecord serde previous with
      | .error e => (.error e, store)
      | .ok record =>
        match validateRecord nameId record store.identity.network
            (previousTip.map ReducerTip.height) with
        | .error e => (.error e, store)
        | .ok () => restoreHeads serde height previousTip
            ((store.writeHead nameId record).deleteRollbackHead height nameId) := by
  rw [restoreHeads.eq_def]
  split
  · rename_i hnil
    exact absurd (h.symm.trans hnil) (by simp)
  · rename_i hcons
    obtain ⟨hrow, -⟩ := List.cons.inj (hcons.symm.trans h)
    rw [Prod.mk.injEq] at hrow
    obtain ⟨rfl, rfl⟩ := hrow
    rfl

/-- One row, as the other adapter restores it. -/
theorem restoreHeadRow_eq (previousTip : Option ReducerTip) (tables : Store B) (nameId : NameId)
    (previous : Option B) : Store.restoreHeadRow serde previousTip tables (nameId, previous) =
      match decodeRecord serde previous with
      | .error e => .error e
      | .ok record =>
        match validateRecord nameId record tables.identity.network
            (previousTip.map ReducerTip.height) with
        | .error e => .error e
        | .ok () => .ok (tables.writeHead nameId record) := by
  rcases previous with - | bytes
  · rfl
  · rw [Store.restoreHeadRow, decodeRecord]
    dsimp only
    rcases okOr (serde.fromSlice bytes) .encoding with e | record
    · rfl
    · dsimp only [Except.map, validateRecord]
      show (validateHead nameId record tables.identity.network _ >>= _) = _
      rcases validateHead nameId record tables.identity.network
        (previousTip.map ReducerTip.height) with e | ⟨⟩
      · rfl
      · rfl

/-- **The loop over the journaled heads.** It restores the rows in the order of the other adapter
and leaves none of them. -/
theorem restoreHeads_spec {height : U32} {previousTip : Option ReducerTip}
    {rows : List (NameId × Option B)} {tables : Store B}
    (hrows : (store.rollbackHeads.rows height).toList = rows)
    (htables : store.toStore = { tables with rollbackHeads := store.rollbackHeads }) :
    (∃ e next, rows.foldlM (Store.restoreHeadRow serde previousTip) tables = .error e ∧
      restoreHeads serde height previousTip store = (.error e, next)) ∨
    ∃ restored drained, rows.foldlM (Store.restoreHeadRow serde previousTip) tables = .ok restored ∧
      restoreHeads serde height previousTip store =
        (.ok (), { store with heads := restored.heads, rollbackHeads := drained }) ∧
      ChildTable.Drained height store.rollbackHeads drained := by
  induction rows generalizing store tables with
  | nil =>
    refine Or.inr ⟨tables, store.rollbackHeads, rfl, ?_,
      ChildTable.drained_of_toList_eq_nil hrows⟩
    rw [restoreHeads_of_nil hrows, show tables.heads = store.heads by rw [htables]]
  | cons row rows ih =>
    obtain ⟨nameId, previous⟩ := row
    have hidentity : store.identity = tables.identity := by rw [htables]
    rw [restoreHeads_of_cons hrows, List.foldlM_cons, restoreHeadRow_eq, ← hidentity]
    rcases decodeRecord serde previous with e | record
    · exact Or.inl ⟨e, store, rfl, rfl⟩
    dsimp only
    rcases validateRecord nameId record store.identity.network
      (previousTip.map ReducerTip.height) with e | ⟨⟩
    · exact Or.inl ⟨e, store, rfl, rfl⟩
    -- the row is restored by both, and here also deleted
    have hrest : (((store.writeHead nameId record).deleteRollbackHead height
        nameId).rollbackHeads.rows height).toList = rows := by
      rw [deleteRollbackHead, ChildTable.rows_delete, if_pos rfl]
      exact OrderedMap.toList_erase_least hrows
    have htables' : ((store.writeHead nameId record).deleteRollbackHead height nameId).toStore =
        { tables.writeHead nameId record with
          rollbackHeads := ((store.writeHead nameId record).deleteRollbackHead height
            nameId).rollbackHeads } :=
      congrArg (fun t : Store B ↦ { t with
        heads := OrderedMap.put t.heads nameId record
        rollbackHeads := store.rollbackHeads.delete height nameId }) htables
    rcases ih hrest htables' with ⟨e, next, hfold, hloop⟩ |
      ⟨restored, drained, hfold, hloop, hdrained⟩
    · exact Or.inl ⟨e, next, hfold, hloop⟩
    · exact Or.inr ⟨restored, drained, hfold, hloop, hdrained.of_delete⟩

omit [Primitives] in
/-- **The loop over the journaled COMMITs.** -/
theorem restoreCommits_spec {height : U32} {rows : List (CommitRef × Option Bytes32)}
    (hrows : (store.rollbackCommits.rows height).toList = rows) :
    ∃ drained, restoreCommits height store = { store with
          pendingCommits := OrderedMap.putAll store.pendingCommits rows
          rollbackCommits := drained } ∧
      ChildTable.Drained height store.rollbackCommits drained := by
  induction rows generalizing store with
  | nil =>
    refine ⟨store.rollbackCommits, ?_, ChildTable.drained_of_toList_eq_nil hrows⟩
    rw [restoreCommits.eq_def]
    split
    · rfl
    · rename_i hcons
      exact absurd (hrows.symm.trans hcons) (by simp)
  | cons row rows ih =>
    obtain ⟨reference, previous⟩ := row
    have hstep : restoreCommits height store = restoreCommits height
        ((store.writeCommit reference previous).deleteRollbackCommit height reference) := by
      rw [restoreCommits.eq_def]
      split
      · rename_i hnil
        exact absurd (hrows.symm.trans hnil) (by simp)
      · rename_i hcons
        obtain ⟨hrow, -⟩ := List.cons.inj (hcons.symm.trans hrows)
        rw [Prod.mk.injEq] at hrow
        obtain ⟨rfl, rfl⟩ := hrow
        rfl
    have hrest : (((store.writeCommit reference previous).deleteRollbackCommit height
        reference).rollbackCommits.rows height).toList = rows := by
      rw [deleteRollbackCommit, ChildTable.rows_delete, if_pos rfl]
      exact OrderedMap.toList_erase_least hrows
    obtain ⟨drained, hloop, hdrained⟩ := ih hrest
    refine ⟨drained, ?_, hdrained.of_delete⟩
    rw [hstep, hloop]
    rfl

end WalletStore

/-! ### Rolling back -/

/-- The same rows in every table. -/
structure Store.Same {B : Type} (tables tables' : Store B) : Prop where
  identity : tables.identity = tables'.identity
  tipHeight : tables.tipHeight = tables'.tipHeight
  tipHash : tables.tipHash = tables'.tipHash
  finalizedHeight : tables.finalizedHeight = tables'.finalizedHeight
  heads : tables.heads = tables'.heads
  pendingCommits : tables.pendingCommits = tables'.pendingCommits
  rollbackBlocks : tables.rollbackBlocks = tables'.rollbackBlocks
  rollbackHeads : ∀ height, tables.rollbackHeads.rows height = tables'.rollbackHeads.rows height
  rollbackCommits : ∀ height,
    tables.rollbackCommits.rows height = tables'.rollbackCommits.rows height

/-- Restoring heads writes one table. -/
theorem Store.foldlM_restoreHeadRow_frame {B : Type} {serde : Serde B HeadRecord}
    {tables restored : Store B} {previousTip : Option ReducerTip} {rows : List (NameId × Option B)}
    (h : rows.foldlM (Store.restoreHeadRow serde previousTip) tables = .ok restored) :
    restored = { tables with heads := restored.heads } := by
  induction rows generalizing tables with
  | nil =>
    rw [← Except.ok.inj h]
  | cons row rows ih =>
    obtain ⟨nameId, previous⟩ := row
    rw [List.foldlM_cons, WalletStore.restoreHeadRow_eq, Except.bind_eq_ok_iff] at h
    obtain ⟨first, hfirst, hrest⟩ := h
    split at hfirst
    · exact absurd hfirst (by simp)
    split at hfirst
    · exact absurd hfirst (by simp)
    · rw [← Except.ok.inj hfirst] at hrest
      have hlast := ih hrest
      exact hlast

namespace WalletStore

variable {B : Type} {serde : Serde B HeadRecord} {store : WalletStore B}

/-- **One block.** -/
theorem rollbackTip_agrees {expectedHash : Bytes32}
    (hhash : ∀ tip, store.toStore.readTip = .ok (some tip) → expectedHash = tip.hash) :
    (∃ e next, store.toStore.rollbackTip serde expectedHash = .error e ∧
      store.rollbackTip serde = (.error e, next)) ∨
    ∃ previous next next', store.toStore.rollbackTip serde expectedHash = .ok (previous, next) ∧
      store.rollbackTip serde = (.ok previous, store.withTables next') ∧ next.Same next' := by
  rw [rollbackTip, Store.rollbackTip, show store.tip = store.toStore.readTip from rfl]
  rcases htip : store.toStore.readTip with e | (- | tip)
  · exact Or.inl ⟨e, store, rfl, rfl⟩
  · exact Or.inl ⟨.missingRollbackJournal, store, rfl, rfl⟩
  have hsame := hhash tip htip
  subst hsame
  simp only [okOr, ensure, if_true, bind, Except.bind]
  generalize hrow : (store.rollbackBlocks[tip.height]?.filter fun row ↦ row.hash = tip.hash) = found
  rcases found with - | row
  · exact Or.inl ⟨.missingRollbackJournal, store, rfl, rfl⟩
  dsimp only
  rcases decodeOptionalTip row.previousTipHeight row.previousTipHash with e | previousTip
  · exact Or.inl ⟨e, store, rfl, rfl⟩
  dsimp only
  rcases restoreHeads_spec rfl (rfl : store.toStore = store.toStore) with
    ⟨e, next, hfold, hloop⟩ | ⟨restored, drained, hfold, hloop, hdrained⟩
  · rw [hfold, hloop]
    exact Or.inl ⟨e, next, rfl, rfl⟩
  have hframe := Store.foldlM_restoreHeadRow_frame hfold
  rw [hfold, hloop]
  dsimp only
  obtain ⟨drained', hcommits, hdrained'⟩ := restoreCommits_spec
    (rfl : (({ store with heads := restored.heads, rollbackHeads := drained } : WalletStore
      B).rollbackCommits.rows tip.height).toList = _)
  rw [hcommits, Store.foldl_writeCommit, hframe]
  refine Or.inr ⟨_, _, _, rfl, rfl, rfl, rfl, rfl, rfl, rfl, rfl, rfl, fun height ↦ ?_,
    fun height ↦ ?_⟩
  · exact (hdrained.rows_cascade height).symm
  · exact (hdrained'.rows_cascade height).symm

end WalletStore

/-- **The two adapters perform the same transitions.** On any tables `apply_delta` of both returns
the same, and leaves the same tables. `rollback_tip`, called with the hash of the tip where it takes
one, fails with the same error, or returns the same tip and leaves the same rows in every table. -/
theorem wallet_adapter_agrees {B : Type} (serde : Serde B HeadRecord) (store : WalletStore B) :
    (∀ delta, store.applyDelta serde delta =
      (store.toStore.applyDelta serde delta).map store.withTables) ∧
    ∀ expectedHash,
      (∀ tip, store.toStore.readTip = .ok (some tip) → expectedHash = tip.hash) →
      (∃ e next, store.toStore.rollbackTip serde expectedHash = .error e ∧
        store.rollbackTip serde = (.error e, next)) ∨
      ∃ previous next next', store.toStore.rollbackTip serde expectedHash = .ok (previous, next) ∧
        store.rollbackTip serde = (.ok previous, store.withTables next') ∧ next.Same next' :=
  ⟨WalletStore.applyDelta_eq, fun _ ↦ WalletStore.rollbackTip_agrees⟩

end Wallet

namespace Sample

/-- The three journaled blocks, in a wallet. -/
def walletStore : WalletStore HeadRecord :=
  (WalletStore.new storeIdentity).withTables ((Store.new storeIdentity).run recordSerde storeCalls)

/-- Both adapters roll the third block back. -/
theorem wallet_adapter_agrees_spend : ∃ next next',
    walletStore.toStore.rollbackTip recordSerde block2.hash =
      .ok (some ⟨1, block1.hash⟩, next) ∧
    walletStore.rollbackTip recordSerde =
      (.ok (some ⟨1, block1.hash⟩), walletStore.withTables next') ∧ next.Same next' := by
  have htip : walletStore.toStore.readTip = .ok (some ⟨2, block2.hash⟩) := by decide +kernel
  have hresult : (walletStore.toStore.rollbackTip recordSerde block2.hash).toOption.map Prod.fst =
      some (some ⟨1, block1.hash⟩) := by decide +kernel
  rw [Option.map_eq_some_iff] at hresult
  obtain ⟨⟨previous, rolledBack⟩, hrolledBack, hprevious⟩ := hresult
  rw [Except.toOption_eq_some_iff] at hrolledBack
  have hhash : ∀ tip, walletStore.toStore.readTip = .ok (some tip) → block2.hash = tip.hash := by
    intro tip h
    rw [htip, Except.ok.injEq, Option.some.injEq] at h
    rw [← h]
  rcases (wallet_adapter_agrees recordSerde walletStore).2 block2.hash hhash with
    ⟨e, next, hfailed, -⟩ | ⟨previous', next, next', hsqlite, hwallet, hsame⟩
  · rw [hrolledBack] at hfailed
    exact absurd hfailed (by simp)
  · have hpair := hrolledBack.symm.trans hsqlite
    rw [Except.ok.injEq, Prod.mk.injEq] at hpair
    rw [← hpair.1, show previous = some ⟨1, block1.hash⟩ from hprevious] at hsqlite hwallet
    exact ⟨next, next', hsqlite, hwallet, hsame⟩

end Sample

end CoppiceNames
