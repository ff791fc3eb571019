import CoppiceNames.Reducer.History
import CoppiceNames.Store.Tables

/-!
# The rollback journal of the store

Whatever the order of deltas, rollbacks and finalizations, the journal of the store is a run of
consecutive blocks that ends at the tip, each linked to the one before it, and none of them is
finalized (`Store.Journaled`). A tip with a journal row can always be rolled back, because what the
row recorded was validated against the same tip when it was written.
-/

open Std hiding not_le not_lt

namespace CoppiceNames

section Retention

variable [Primitives] {B : Type}

/-! ### The loops -/

namespace Store

variable {serde : Serde B HeadRecord} {store next : Store B}

/-- A journaled record that `rollback_tip` accepts before a tip. -/
def Restores (serde : Serde B HeadRecord) (network : Network) (previousTip : Option U32)
    (nameId : NameId) (bytes : B) : Prop :=
  ∃ record, serde.fromSlice bytes = some record ∧
    validateHead nameId record network previousTip = .ok ()

/-- The write that a change of a head asks for. -/
def headWrite (serde : Serde B HeadRecord) (change : HeadChange) :
    JournaledWrite NameId HeadRecord (Option B) where
  key := change.nameId
  expected := change.previous.map Head.store
  recorded := change.previous.bind fun head ↦ serde.toVec head.store
  current := change.current.map Head.store

omit [Primitives] in
/-- The write that a change of a COMMIT asks for. -/
def commitWrite (change : CommitChange) :
    JournaledWrite CommitRef Bytes32 (Option Bytes32) where
  key := change.reference
  expected := change.previous.map Commitment.bytes
  recorded := change.previous.map Commitment.bytes
  current := change.current.map Commitment.bytes

/-- The recorded bytes read back as the record. -/
theorem bind_recorded (hserde : serde.RoundTrips) (previous : Option Head) :
    (previous.bind fun head ↦ serde.toVec head.store).bind serde.fromSlice =
      previous.map Head.store := by
  rcases previous with - | head
  · rfl
  · obtain ⟨bytes, hwrite, hread⟩ := hserde head.store
    rw [Option.bind_some, hwrite, Option.bind_some, hread, Option.map_some]

theorem encodeRecord_eq_ok (hserde : serde.RoundTrips) (previous : Option Head) :
    encodeRecord serde (previous.map Head.store) =
      .ok (previous.bind fun head ↦ serde.toVec head.store) := by
  rcases previous with - | head
  · rfl
  · obtain ⟨bytes, hwrite, -⟩ := hserde head.store
    rw [Option.map_some, encodeRecord, hwrite, Option.bind_some, hwrite]
    rfl

/-- **The head loop** performs the writes, if the records are valid. -/
theorem foldlM_applyHeadChange_eq_ok_iff (hserde : serde.RoundTrips) {fromTip : Option ReducerTip}
    {toTip : ReducerTip} {changes : List HeadChange} {next : Store B}
    (hparent : toTip.height ∈ store.rollbackBlocks) :
    changes.foldlM (applyHeadChange serde fromTip toTip) store = .ok next ↔
      (∀ change ∈ changes,
        validateRecord change.nameId (change.previous.map Head.store) store.identity.network
          (fromTip.map ReducerTip.height) = .ok () ∧
        validateRecord change.nameId (change.current.map Head.store) store.identity.network
          (some toTip.height) = .ok ()) ∧
      ∃ table rows, (changes.map (headWrite serde)).foldlM (JournaledWrite.perform toTip.height)
          (store.heads, store.rollbackHeads) = some (table, rows) ∧
        next = { store with heads := table, rollbackHeads := rows } := by
  induction changes generalizing store with
  | nil =>
    constructor
    · intro h
      exact ⟨fun change hmem ↦ absurd hmem List.not_mem_nil, store.heads, store.rollbackHeads, rfl,
        (Except.ok.inj h).symm⟩
    · rintro ⟨-, table, rows, hwrites, rfl⟩
      obtain ⟨rfl, rfl⟩ := Prod.mk.inj (Option.some.inj hwrites)
      rfl
  | cons change changes ih =>
    rw [List.foldlM_cons, Except.bind_eq_ok_iff, List.map_cons, List.foldlM_cons]
    constructor
    · rintro ⟨first, hfirst, hrest⟩
      obtain ⟨hprevious, hcurrent, hexpected, bytes, rows', hbytes, -, hinsert, rfl⟩ :=
        applyHeadChange_eq_ok_iff.1 hfirst
      rw [encodeRecord_eq_ok hserde, Except.ok.injEq] at hbytes
      rw [← hbytes] at hinsert
      obtain ⟨hvalid, table, rows, hwrites, rfl⟩ := (ih (by exact hparent)).1 hrest
      refine ⟨fun other hmem ↦ ?_, table, rows, ?_, rfl⟩
      · rcases List.mem_cons.1 hmem with rfl | hmem
        · exact ⟨hprevious, hcurrent⟩
        · exact hvalid other hmem
      · rw [JournaledWrite.perform_eq_some_iff.2 ⟨hexpected, hinsert, rfl⟩]
        exact hwrites
    · rintro ⟨hvalid, table, rows, hwrites, rfl⟩
      rw [Option.bind_eq_bind, Option.bind_eq_some_iff] at hwrites
      obtain ⟨⟨table', rows'⟩, hfirst, hrest⟩ := hwrites
      obtain ⟨hexpected, hinsert, rfl⟩ := JournaledWrite.perform_eq_some_iff.1 hfirst
      obtain ⟨hprevious, hcurrent⟩ := hvalid change List.mem_cons_self
      refine ⟨_, applyHeadChange_eq_ok_iff.2 ⟨hprevious, hcurrent, hexpected, _, rows',
        encodeRecord_eq_ok hserde change.previous, hparent, hinsert, rfl⟩, ?_⟩
      exact (ih (by exact hparent)).2
        ⟨fun other hmem ↦ hvalid other (List.mem_cons_of_mem change hmem), table,
        rows, hrest, rfl⟩

omit [Primitives] in
/-- **The COMMIT loop** performs the writes. -/
theorem foldlM_applyCommitChange_eq_ok_iff {toTip : ReducerTip} {changes : List CommitChange}
    {next : Store B} (hparent : toTip.height ∈ store.rollbackBlocks) :
    changes.foldlM (applyCommitChange toTip) store = .ok next ↔
      ∃ table rows, (changes.map commitWrite).foldlM (JournaledWrite.perform toTip.height)
          (store.pendingCommits, store.rollbackCommits) = some (table, rows) ∧
        next = { store with pendingCommits := table, rollbackCommits := rows } := by
  induction changes generalizing store with
  | nil =>
    constructor
    · intro h
      exact ⟨store.pendingCommits, store.rollbackCommits, rfl, (Except.ok.inj h).symm⟩
    · rintro ⟨table, rows, hwrites, rfl⟩
      obtain ⟨rfl, rfl⟩ := Prod.mk.inj (Option.some.inj hwrites)
      rfl
  | cons change changes ih =>
    rw [List.foldlM_cons, Except.bind_eq_ok_iff, List.map_cons, List.foldlM_cons]
    constructor
    · rintro ⟨first, hfirst, hrest⟩
      obtain ⟨hexpected, -, rows', hinsert, rfl⟩ := applyCommitChange_eq_ok_iff.1 hfirst
      obtain ⟨table, rows, hwrites, rfl⟩ := (ih (by exact hparent)).1 hrest
      refine ⟨table, rows, ?_, rfl⟩
      rw [JournaledWrite.perform_eq_some_iff.2 ⟨hexpected, hinsert, rfl⟩]
      exact hwrites
    · rintro ⟨table, rows, hwrites, rfl⟩
      rw [Option.bind_eq_bind, Option.bind_eq_some_iff] at hwrites
      obtain ⟨⟨table', rows'⟩, hfirst, hrest⟩ := hwrites
      obtain ⟨hexpected, hinsert, rfl⟩ := JournaledWrite.perform_eq_some_iff.1 hfirst
      exact ⟨_, applyCommitChange_eq_ok_iff.2 ⟨hexpected, hparent, rows', hinsert, rfl⟩,
        (ih (by exact hparent)).2 ⟨table, rows, hrest, rfl⟩⟩

/-- What the heads of a delta journal restores before it. -/
theorem recorded_or_restores (hserde : serde.RoundTrips) {network : Network}
    {previousTip : Option U32} {changes : List HeadChange}
    (hvalid : ∀ change ∈ changes, validateRecord change.nameId (change.previous.map Head.store)
      network previousTip = .ok ())
    {height : U32} {table table' : OrderedMap NameId HeadRecord}
    {rows rows' : ChildTable U32 NameId (Option B)}
    (hwrites : (changes.map (headWrite serde)).foldlM (JournaledWrite.perform height)
      (table, rows) = some (table', rows'))
    {nameId : NameId} {bytes : B} (hrecorded : (rows'.rows height)[nameId]? = some (some bytes)) :
    (rows.rows height)[nameId]? = some (some bytes) ∨
      Restores serde network previousTip nameId bytes := by
  refine (JournaledWrite.recorded_of_foldlM_perform hwrites hrecorded).imp_right ?_
  rintro ⟨write, hwrite, hkey, hbytes⟩
  obtain ⟨change, hchange, rfl⟩ := List.mem_map.1 hwrite
  have hprevious := hvalid change hchange
  rw [headWrite] at hkey hbytes
  dsimp only at hkey hbytes
  rcases hrecord : change.previous with - | head
  · rw [hrecord] at hbytes
    exact absurd hbytes (by simp)
  · rw [hrecord, Option.bind_some] at hbytes
    obtain ⟨written, hwrite, hread⟩ := hserde head.store
    rw [hwrite, Option.some.injEq] at hbytes
    rw [hbytes] at hread
    rw [hrecord, hkey] at hprevious
    exact ⟨head.store, hread, hprevious⟩

/-- What the head loop of a delta leaves alone, and what it adds to the journal. -/
structure HeadsLoop (serde : Serde B HeadRecord) (fromTip : Option ReducerTip) (toTip : ReducerTip)
    (store next : Store B) : Prop where
  frame : next = { store with heads := next.heads, rollbackHeads := next.rollbackHeads }
  other : ∀ height, height ≠ toTip.height →
    next.rollbackHeads.rows height = store.rollbackHeads.rows height
  added : ∀ nameId bytes, (next.rollbackHeads.rows toTip.height)[nameId]? = some (some bytes) →
    (store.rollbackHeads.rows toTip.height)[nameId]? = some (some bytes) ∨
      Restores serde store.identity.network (fromTip.map ReducerTip.height) nameId bytes

theorem headsLoop (hserde : serde.RoundTrips) {fromTip : Option ReducerTip} {toTip : ReducerTip}
    {changes : List HeadChange} (hparent : toTip.height ∈ store.rollbackBlocks)
    (h : changes.foldlM (applyHeadChange serde fromTip toTip) store = .ok next) :
    HeadsLoop serde fromTip toTip store next := by
  obtain ⟨hvalid, table, rows, hwrites, rfl⟩ :=
    (foldlM_applyHeadChange_eq_ok_iff hserde hparent).1 h
  exact ⟨rfl, fun height hne ↦ JournaledWrite.rows_foldlM_perform hne hwrites,
    fun nameId bytes hrecorded ↦ recorded_or_restores hserde
      (fun change hchange ↦ (hvalid change hchange).1) hwrites hrecorded⟩

omit [Primitives] in
/-- The COMMIT loop of a delta writes the two COMMIT tables. -/
theorem commitsLoop {toTip : ReducerTip} {changes : List CommitChange}
    (hparent : toTip.height ∈ store.rollbackBlocks)
    (h : changes.foldlM (applyCommitChange toTip) store = .ok next) :
    next = { store with
      pendingCommits := next.pendingCommits
      rollbackCommits := next.rollbackCommits } := by
  obtain ⟨table, rows, -, rfl⟩ := (foldlM_applyCommitChange_eq_ok_iff hparent).1 h
  rfl

omit [Primitives] in
/-- Restoring COMMITs writes one table. -/
theorem foldl_writeCommit (rows : List (CommitRef × Option Bytes32)) (store : Store B) :
    rows.foldl (fun store row ↦ store.writeCommit row.1 row.2) store =
      { store with pendingCommits := OrderedMap.putAll store.pendingCommits rows } := by
  induction rows generalizing store with
  | nil => rfl
  | cons row rows ih => exact ih (store.writeCommit row.1 row.2)

/-- The head loop of a rollback succeeds on records that restore, and writes them back. -/
theorem foldlM_restoreHeadRow {previousTip : Option ReducerTip} {rows : List (NameId × Option B)}
    (h : ∀ nameId bytes, (nameId, some bytes) ∈ rows →
      Restores serde store.identity.network (previousTip.map ReducerTip.height) nameId bytes) :
    rows.foldlM (restoreHeadRow serde previousTip) store =
      .ok { store with
        heads := OrderedMap.putAll store.heads
          (rows.map fun row ↦ (row.1, row.2.bind serde.fromSlice)) } := by
  induction rows generalizing store with
  | nil => rfl
  | cons row rows ih =>
    have hstep : restoreHeadRow serde previousTip store row =
        .ok (store.writeHead row.1 (row.2.bind serde.fromSlice)) := by
      rcases row with ⟨nameId, - | bytes⟩
      · rfl
      · obtain ⟨record, hread, hvalid⟩ := h nameId bytes List.mem_cons_self
        rw [restoreHeadRow, Option.bind_some, hread]
        exact Except.bind_eq_ok_iff.2 ⟨record, okOr_eq_ok_iff.2 hread,
          Except.bind_eq_ok_iff.2 ⟨(), hvalid, rfl⟩⟩
    rw [List.foldlM_cons, hstep]
    exact ih fun nameId bytes hmem ↦ h nameId bytes (List.mem_cons_of_mem row hmem)

/-- The tables after the block at a height is rolled back to a tip. -/
def restored (serde : Serde B HeadRecord) (store : Store B) (height : U32)
    (previous : Option ReducerTip) : Store B :=
  { store with
    heads := OrderedMap.putAll store.heads ((store.rollbackHeads.rows height).toList.map fun row ↦
      (row.1, row.2.bind serde.fromSlice))
    pendingCommits := OrderedMap.putAll store.pendingCommits
      (store.rollbackCommits.rows height).toList
    rollbackBlocks := store.rollbackBlocks.filter fun row _ ↦ row ≠ height
    rollbackHeads := store.rollbackHeads.cascade fun row ↦ row ≠ height
    rollbackCommits := store.rollbackCommits.cascade fun row ↦ row ≠ height
    tipHeight := previous.map ReducerTip.height
    tipHash := previous.map ReducerTip.hash }

end Store

/-! ### The invariant -/

/-- **The rollback journal of a store with a tip.** -/
structure Store.Journaled (serde : Serde B HeadRecord) (activation : U32)
    (tip : Option ReducerTip) (store : Store B) : Prop where
  tipHeight : store.tipHeight = tip.map ReducerTip.height
  tipHash : store.tipHash = tip.map ReducerTip.hash
  below : ∀ height ∈ store.rollbackBlocks, ∃ t, tip = some t ∧ height ≤ t.height
  run : ∀ height ∈ store.rollbackBlocks, ∀ t, tip = some t →
    ∀ later, height ≤ later → later ≤ t.height → later ∈ store.rollbackBlocks
  atTip : ∀ t row, tip = some t → store.rollbackBlocks[t.height]? = some row → row.hash = t.hash
  previous : ∀ (height : U32) (row : RollbackBlock), store.rollbackBlocks[height]? = some row →
    ∃ previous : Option ReducerTip, row.previousTipHeight = previous.map ReducerTip.height ∧
      row.previousTipHash = previous.map ReducerTip.hash ∧
      (previous = none → height = activation) ∧
      ∀ p, previous = some p → height.val = p.height.val + 1
  linked : ∀ (height later : U32) (row row' : RollbackBlock),
    store.rollbackBlocks[height]? = some row → store.rollbackBlocks[later]? = some row' →
    later.val = height.val + 1 →
    row'.previousTipHeight = some height ∧ row'.previousTipHash = some row.hash
  finalized : ∀ f, store.finalizedHeight = some f →
    (∀ height ∈ store.rollbackBlocks, f < height) ∧
      (∀ t, tip = some t → f ≤ t.height) ∧ (tip = none → f < activation)
  records : ∀ height row, store.rollbackBlocks[height]? = some row → ∀ nameId bytes,
    (store.rollbackHeads.rows height)[nameId]? = some (some bytes) →
      Store.Restores serde store.identity.network row.previousTipHeight nameId bytes
  orphans : ∀ height, height ∉ store.rollbackBlocks → store.rollbackHeads.rows height = ∅

namespace Store.Journaled

variable {serde : Serde B HeadRecord} {activation : U32} {tip : Option ReducerTip}
  {store next : Store B}

theorem new (identity : StoreIdentity) :
    Journaled serde activation none (Store.new identity : Store B) where
  tipHeight := rfl
  tipHash := rfl
  below height hmem := absurd hmem ExtTreeMap.not_mem_empty
  run height hmem := absurd hmem ExtTreeMap.not_mem_empty
  atTip t row htip := absurd htip (by simp)
  previous height row hrow := absurd hrow (by simp [Store.new])
  linked height later row row' hrow := absurd hrow (by simp [Store.new])
  finalized f hf := absurd hf (by simp [Store.new])
  records height row hrow := absurd hrow (by simp [Store.new])
  orphans height _ := by rw [Store.new, ChildTable.rows_empty]

theorem readTip (h : Journaled serde activation tip store) : store.readTip = .ok tip := by
  rw [Store.readTip, h.tipHeight, h.tipHash, decodeOptionalTip_map]

/-- The rows are those from some height up to the tip. -/
theorem exists_low {t : ReducerTip} (h : Journaled serde activation (some t) store) :
    ∃ low : Nat, ∀ height : U32,
      height ∈ store.rollbackBlocks ↔ low ≤ height.val ∧ height ≤ t.height := by
  by_cases hany : ∃ low, ∃ height ∈ store.rollbackBlocks, height.val = low
  · -- the smallest height of a row
    refine ⟨Nat.find hany, fun height ↦ ⟨fun hmem ↦ ?_, fun hbounds ↦ ?_⟩⟩
    · obtain ⟨t', ht', hle⟩ := h.below height hmem
      rw [← Option.some.inj ht'] at hle
      exact ⟨Nat.find_min' hany ⟨height, hmem, rfl⟩, hle⟩
    · obtain ⟨first, hmem, hfirst⟩ := Nat.find_spec hany
      refine h.run first hmem t rfl height ?_ hbounds.2
      rw [Fin.le_def, hfirst]
      exact hbounds.1
  · refine ⟨t.height.val + 1, fun height ↦ ⟨fun hmem ↦ absurd ⟨_, height, hmem, rfl⟩ hany,
      fun hbounds ↦ ?_⟩⟩
    have hle := Fin.le_def.1 hbounds.2
    exact absurd hbounds.1 (by omega)

/-- **An applied delta.** Only a delta from no tip depends on where the deployment starts. -/
theorem applyDelta (h : Journaled serde activation tip store) (hserde : serde.RoundTrips)
    {delta : StateDelta} (happly : store.applyDelta serde delta = .ok next)
    (hstart : delta.fromTip = none → ∀ t, delta.toTip = some t → t.height = activation) :
    Journaled serde activation delta.toTip next ∧
      next.finalizedHeight = store.finalizedHeight ∧ delta.toTip ≠ none := by
  obtain ⟨htip, toTip, htoTip, hsequential, -, hnew, written, committed, hwritten, hcommitted,
    rfl⟩ := Store.applyDelta_eq_ok_iff.1 happly
  rw [h.readTip, Except.ok.injEq] at htip
  rw [htoTip]
  have hparent : toTip.height ∈ store.rollbackBlocks.insert toTip.height
      ⟨toTip.hash, delta.fromTip.map ReducerTip.height, delta.fromTip.map ReducerTip.hash⟩ :=
    ExtTreeMap.mem_insert_self
  have hheads := Store.headsLoop hserde (by exact hparent) hwritten
  have hframe := Store.commitsLoop (by rw [hheads.frame]; exact hparent) hcommitted
  have hblocks : committed.rollbackBlocks = store.rollbackBlocks.insert toTip.height
      ⟨toTip.hash, delta.fromTip.map ReducerTip.height, delta.fromTip.map ReducerTip.hash⟩ := by
    rw [hframe, hheads.frame]
  have hidentity : committed.identity = store.identity := by rw [hframe, hheads.frame]
  have hfinalized : committed.finalizedHeight = store.finalizedHeight := by
    rw [hframe, hheads.frame]
  have hrows : committed.rollbackHeads = written.rollbackHeads := by rw [hframe]
  -- where the new tip lies
  have hnext : ∀ t, tip = some t → toTip.height.val = t.height.val + 1 := by
    intro t ht
    rw [htip] at ht
    exact U32.checkedAdd_eq_some_iff.1 (hsequential t ht).1
  have hfirst : tip = none → toTip.height = activation := by
    intro hnone
    rw [htip] at hnone
    exact hstart hnone toTip htoTip
  have hget : ∀ height row, committed.rollbackBlocks[height]? = some row →
      (height = toTip.height ∧ row = ⟨toTip.hash, tip.map ReducerTip.height,
        tip.map ReducerTip.hash⟩) ∨
      (height ≠ toTip.height ∧ store.rollbackBlocks[height]? = some row) := by
    intro height row hrow
    rw [hblocks, OrderedMap.getElem?_insert_eq_some_iff, ← htip] at hrow
    exact hrow.imp (And.imp Eq.symm Eq.symm) (And.imp Ne.symm id)
  have hmem : ∀ height, height ∈ committed.rollbackBlocks ↔
      height = toTip.height ∨ height ∈ store.rollbackBlocks := by
    intro height
    rw [hblocks, ExtTreeMap.mem_insert, LawfulEqCmp.compare_eq_iff_eq, eq_comm]
  have hbelow : ∀ height ∈ store.rollbackBlocks, height < toTip.height := by
    intro height hheight
    obtain ⟨t, ht, hle⟩ := h.below height hheight
    have hval := hnext t ht
    rw [Fin.le_def] at hle
    rw [Fin.lt_def]
    omega
  refine ⟨⟨rfl, rfl, fun height hheight ↦ ?_, fun height hheight t ht later hge hle ↦ ?_,
    fun t row ht hrow ↦ ?_, fun height row hrow ↦ ?_,
      fun height later row row' hrow hlater hsucc ↦ ?_,
    fun f hf ↦ ?_, fun height row hrow nameId bytes hrecorded ↦ ?_, fun height hheight ↦ ?_⟩,
    hfinalized, by simp⟩
  · refine ⟨toTip, rfl, ?_⟩
    rcases (hmem height).1 hheight with rfl | hold
    · exact le_rfl
    · exact (hbelow height hold).le
  · rw [Option.some.injEq] at ht
    subst ht
    refine (hmem later).2 ?_
    by_cases hlast : later = toTip.height
    · exact Or.inl hlast
    · have hlt : later < toTip.height := hle.lt_of_ne hlast
      rcases (hmem height).1 hheight with rfl | hold
      · exact absurd hge (not_le.2 hlt)
      · obtain ⟨t, ht, -⟩ := h.below height hold
        have hval := hnext t ht
        refine Or.inr (h.run height hold t ht later hge ?_)
        rw [Fin.lt_def] at hlt
        rw [Fin.le_def]
        omega
  · rw [Option.some.injEq] at ht
    subst ht
    rcases hget _ row hrow with ⟨-, rfl⟩ | ⟨hne, -⟩
    · rfl
    · exact absurd rfl hne
  · rcases hget height row hrow with ⟨rfl, rfl⟩ | ⟨-, hold⟩
    · exact ⟨tip, rfl, rfl, hfirst, hnext⟩
    · exact h.previous height row hold
  · rcases hget later row' hlater with ⟨rfl, rfl⟩ | ⟨-, hold'⟩
    · -- the row before the new one is the row of the old tip
      rcases hget height row hrow with ⟨rfl, -⟩ | ⟨-, hold⟩
      · exact absurd hsucc (by omega)
      · obtain ⟨t, ht, -⟩ := h.below height (OrderedMap.mem_of_getElem?_eq_some hold)
        have hval := hnext t ht
        have hheight : height = t.height := Fin.ext (by omega)
        subst hheight
        rw [ht, h.atTip t row ht hold]
        exact ⟨rfl, rfl⟩
    · rcases hget height row hrow with ⟨rfl, -⟩ | ⟨-, hold⟩
      · have hlt := hbelow later (OrderedMap.mem_of_getElem?_eq_some hold')
        rw [Fin.lt_def] at hlt
        exact absurd hsucc (by omega)
      · exact h.linked height later row row' hold hold' hsucc
  · have hf' : store.finalizedHeight = some f := hfinalized ▸ hf
    obtain ⟨habove, htop, hbottom⟩ := h.finalized f hf'
    have hlt : f < toTip.height := by
      rcases htip' : tip with - | t
      · rw [hfirst htip']
        exact hbottom htip'
      · have hle := htop t htip'
        have hval := hnext t htip'
        rw [Fin.le_def] at hle
        rw [Fin.lt_def]
        omega
    refine ⟨fun height hheight ↦ ?_, fun t ht ↦ ?_, fun hnone ↦ absurd hnone (by simp)⟩
    · rcases (hmem height).1 hheight with rfl | hold
      · exact hlt
      · exact habove height hold
    · rw [← Option.some.inj ht]
      exact hlt.le
  · rw [show (committed.writeTip (some toTip)).identity = committed.identity from rfl, hidentity]
    rw [show (committed.writeTip (some toTip)).rollbackHeads = committed.rollbackHeads from rfl,
      hrows] at hrecorded
    rcases hget height row hrow with ⟨rfl, rfl⟩ | ⟨hne, hold⟩
    · rcases hheads.added nameId bytes hrecorded with hbefore | hadded
      · rw [h.orphans _ hnew, ExtTreeMap.getElem?_empty] at hbefore
        exact absurd hbefore (by simp)
      · rw [← htip] at hadded
        exact hadded
    · rw [hheads.other height hne] at hrecorded
      exact h.records height row hold nameId bytes hrecorded
  · have hout := (hmem height).not.1 hheight
    rw [not_or] at hout
    rw [show (committed.writeTip (some toTip)).rollbackHeads = committed.rollbackHeads from rfl,
      hrows, hheads.other height hout.1]
    exact h.orphans height hout.2

omit [Primitives] in
/-- Which rows are kept. -/
theorem getElem?_kept {kept : U32 → Bool} {height : U32} {row : RollbackBlock} :
    (store.rollbackBlocks.filter fun height _ ↦ kept height)[height]? = some row ↔
      store.rollbackBlocks[height]? = some row ∧ kept height = true := by
  rw [ExtTreeMap.getElem?_filter', Option.filter_eq_some_iff]

omit [Primitives] in
theorem mem_kept {kept : U32 → Bool} {height : U32} :
    height ∈ (store.rollbackBlocks.filter fun height _ ↦ kept height) ↔
      height ∈ store.rollbackBlocks ∧ kept height = true := by
  simp only [ExtTreeMap.mem_iff_isSome_getElem?, Option.isSome_iff_exists, getElem?_kept,
    exists_and_right]

/-- **Fewer rows.** Deleting rows leaves what the others say; what depends on the tip is left to
show. -/
theorem keep (h : Journaled serde activation tip store) {kept : U32 → Bool}
    {tip' : Option ReducerTip}
    (hidentity : next.identity = store.identity)
    (hblocks : next.rollbackBlocks = store.rollbackBlocks.filter fun height _ ↦ kept height)
    (hheads : next.rollbackHeads = store.rollbackHeads.cascade kept)
    (hheight : next.tipHeight = tip'.map ReducerTip.height)
    (hhash : next.tipHash = tip'.map ReducerTip.hash)
    (hbelow : ∀ height ∈ store.rollbackBlocks, kept height = true →
      ∃ t, tip' = some t ∧ height ≤ t.height)
    (hrun : ∀ height ∈ store.rollbackBlocks, kept height = true → ∀ t, tip' = some t →
      ∀ later, height ≤ later → later ≤ t.height →
        later ∈ store.rollbackBlocks ∧ kept later = true)
    (htop : ∀ t row, tip' = some t → store.rollbackBlocks[t.height]? = some row →
      row.hash = t.hash)
    (hfinalized : ∀ f, next.finalizedHeight = some f →
      (∀ height ∈ store.rollbackBlocks, kept height = true → f < height) ∧
        (∀ t, tip' = some t → f ≤ t.height) ∧ (tip' = none → f < activation)) :
    Journaled serde activation tip' next where
  tipHeight := hheight
  tipHash := hhash
  below height hmem := by
    rw [hblocks, mem_kept] at hmem
    exact hbelow height hmem.1 hmem.2
  run height hmem t ht later hge hle := by
    rw [hblocks, mem_kept] at hmem
    rw [hblocks, mem_kept]
    exact hrun height hmem.1 hmem.2 t ht later hge hle
  atTip t row ht hrow := by
    rw [hblocks, getElem?_kept] at hrow
    exact htop t row ht hrow.1
  previous height row hrow := by
    rw [hblocks, getElem?_kept] at hrow
    exact h.previous height row hrow.1
  linked height later row row' hrow hlater := by
    rw [hblocks, getElem?_kept] at hrow hlater
    exact h.linked height later row row' hrow.1 hlater.1
  finalized f hf := by
    obtain ⟨habove, hrest⟩ := hfinalized f hf
    refine ⟨fun height hmem ↦ ?_, hrest⟩
    rw [hblocks, mem_kept] at hmem
    exact habove height hmem.1 hmem.2
  records height row hrow nameId bytes hrecorded := by
    rw [hblocks, getElem?_kept] at hrow
    rw [hheads, ChildTable.rows_cascade, if_pos hrow.2] at hrecorded
    rw [hidentity]
    exact h.records height row hrow.1 nameId bytes hrecorded
  orphans height hout := by
    rw [hblocks, mem_kept] at hout
    rw [hheads, ChildTable.rows_cascade]
    split
    · rename_i hkept
      exact h.orphans height fun hmem ↦ hout ⟨hmem, hkept⟩
    · rfl

/-- **A tip with a journal row rolls back** to the previous tip of the row. -/
theorem exists_rollbackTip {t : ReducerTip} (h : Journaled serde activation (some t) store)
    (hmem : t.height ∈ store.rollbackBlocks) :
    ∃ previous row, store.rollbackBlocks[t.height]? = some row ∧
      row.previousTipHeight = previous.map ReducerTip.height ∧
      row.previousTipHash = previous.map ReducerTip.hash ∧
      store.rollbackTip serde t.hash = .ok (previous, store.restored serde t.height previous) ∧
      Journaled serde activation previous (store.restored serde t.height previous) := by
  obtain ⟨row, hrow⟩ := OrderedMap.exists_getElem?_of_mem hmem
  obtain ⟨previous, hheight, hhash, hfirst, hnext⟩ := h.previous t.height row hrow
  have hrecords : ∀ nameId bytes,
      (nameId, some bytes) ∈ (store.rollbackHeads.rows t.height).toList →
      Store.Restores serde store.identity.network (previous.map ReducerTip.height)
        nameId bytes := by
    intro nameId bytes hpair
    rw [← hheight]
    exact h.records t.height row hrow nameId bytes
      (ExtTreeMap.mem_toList_iff_getElem?_eq_some.1 hpair)
  have hrestored := Store.foldlM_restoreHeadRow hrecords
  have hroll := Store.rollbackTip_eq_ok_iff.2 ⟨t, row, _, h.readTip, rfl, hrow,
    h.atTip t row rfl hrow, by rw [hheight, hhash, decodeOptionalTip_map], hrestored, rfl⟩
  rw [Store.foldl_writeCommit] at hroll
  have hbefore : ∀ height ∈ store.rollbackBlocks, height ≠ t.height →
      height.val + 1 ≤ t.height.val := by
    intro height hheight' hne
    obtain ⟨t', ht', hle⟩ := h.below height hheight'
    rw [← Option.some.inj ht'] at hle
    have hlt : height < t.height := hle.lt_of_ne hne
    rwa [Fin.lt_def] at hlt
  -- without a previous tip, the row at activation is the only one
  have hlone : previous = none → ∀ height ∈ store.rollbackBlocks, height = t.height := by
    intro hnone height hheight'
    by_contra hne
    have hlt := hbefore height hheight' hne
    have hbound := t.height.isLt
    let below : U32 := ⟨t.height.val - 1, by omega⟩
    have hbelow : below ∈ store.rollbackBlocks :=
      h.run height hheight' t rfl below (Fin.le_def.2 (show height.val ≤ t.height.val - 1 by omega))
        (Fin.le_def.2 (show t.height.val - 1 ≤ t.height.val by omega))
    obtain ⟨older, holder⟩ := OrderedMap.exists_getElem?_of_mem hbelow
    have hlinked := (h.linked below t.height older row holder hrow
      (show t.height.val = t.height.val - 1 + 1 by omega)).1
    rw [hheight, hnone] at hlinked
    exact absurd hlinked (by simp)
  refine ⟨previous, row, hrow, hheight, hhash, hroll, h.keep rfl rfl rfl rfl rfl
    (fun height hheight' hkept ↦ ?_) (fun height hheight' hkept p hp later hge hle ↦ ?_)
    (fun p row' hp hrow' ↦ ?_) (fun f hf ↦ ?_)⟩
  · have hlt := hbefore height hheight' (of_decide_eq_true hkept)
    rcases previous with - | p
    · exact absurd (hlone rfl height hheight') (of_decide_eq_true hkept)
    · have hval := hnext p rfl
      exact ⟨p, rfl, Fin.le_def.2 (by omega)⟩
  · have hval := hnext p hp
    rw [Fin.le_def] at hle
    have hlater : later ≤ t.height := Fin.le_def.2 (by omega)
    refine ⟨h.run height hheight' t rfl later hge hlater, decide_eq_true ?_⟩
    rintro rfl
    omega
  · -- the row below the tip is the one the row at the tip is linked to
    have hlinked := (h.linked p.height t.height row' row hrow' hrow (hnext p hp)).2
    rw [hhash, hp, Option.map_some, Option.some.injEq] at hlinked
    exact hlinked.symm
  · obtain ⟨habove, htop, -⟩ := h.finalized f hf
    have hlt := habove t.height hmem
    refine ⟨fun height hheight' _ ↦ habove height hheight', fun p hp ↦ ?_, fun hnone ↦ ?_⟩
    · have hval := hnext p hp
      rw [Fin.lt_def] at hlt
      exact Fin.le_def.2 (by omega)
    · rw [← hfirst hnone]
      exact hlt

/-- **A rollback that succeeds.** -/
theorem rollbackTip (h : Journaled serde activation tip store) {expectedHash : Bytes32}
    {previous : Option ReducerTip} (hroll : store.rollbackTip serde expectedHash =
      .ok (previous, next)) :
    ∃ t, tip = some t ∧ t.height ∈ store.rollbackBlocks ∧
      Journaled serde activation previous next ∧
      next.finalizedHeight = store.finalizedHeight := by
  obtain ⟨t, row, -, htip, rfl, hrow, -⟩ := Store.rollbackTip_eq_ok_iff.1 hroll
  rw [h.readTip, Except.ok.injEq] at htip
  subst htip
  have hmem := OrderedMap.mem_of_getElem?_eq_some hrow
  obtain ⟨previous', -, -, -, -, hroll', hnext⟩ := h.exists_rollbackTip hmem
  rw [hroll, Except.ok.injEq, Prod.mk.injEq] at hroll'
  obtain ⟨rfl, rfl⟩ := hroll'
  exact ⟨t, rfl, hmem, hnext, rfl⟩

/-- **A finalization.** -/
theorem finalizeThrough (h : Journaled serde activation tip store) {height : U32}
    (hfinalize : store.finalizeThrough height = .ok next) :
    Journaled serde activation tip next ∧
      ∀ f, store.finalizedHeight = some f → ∃ f', next.finalizedHeight = some f' ∧ f ≤ f' := by
  obtain ⟨t, htip, hle, hretention, rfl⟩ := Store.finalizeThrough_eq_ok_iff.1 hfinalize
  rw [h.readTip, Except.ok.injEq] at htip
  subst htip
  refine ⟨h.keep rfl rfl rfl h.tipHeight h.tipHash (fun k hmem _ ↦ h.below k hmem)
    (fun k hmem hkept t' ht' later hge hle' ↦ ⟨h.run k hmem t' ht' later hge hle', ?_⟩) h.atTip
    (fun f hf ↦ ?_), fun f hf ↦ ?_⟩
  · exact decide_eq_true ((of_decide_eq_true hkept).trans_le hge)
  · dsimp only at hf
    split at hf
    · rw [← Option.some.inj hf]
      refine ⟨fun k _ hkept ↦ of_decide_eq_true hkept, fun t' ht' ↦ ?_, fun hnone ↦
        absurd hnone (by simp)⟩
      rw [← Option.some.inj ht']
      exact hle
    · obtain ⟨habove, hrest⟩ := h.finalized f hf
      exact ⟨fun k hmem _ ↦ habove k hmem, hrest⟩
  · dsimp only
    rw [hf, Option.all_some]
    split
    · rename_i hlt
      exact ⟨height, rfl, (of_decide_eq_true hlt).le⟩
    · exact ⟨f, rfl, le_rfl⟩

end Store.Journaled

/-! ### Rolling back block by block -/

/-- Roll back one block after the other. -/
def Store.rollbackAll (serde : Serde B HeadRecord) (store : Store B) (hashes : List Bytes32) :
    Except StoreError (Store B) :=
  hashes.foldlM (fun store hash ↦ (store.rollbackTip serde hash).map Prod.snd) store

namespace Store.Journaled

variable {serde : Serde B HeadRecord} {activation : U32} {tip : Option ReducerTip}
  {store next : Store B}

/-- The last journal row is the one of the tip. -/
theorem getLast (h : Journaled serde activation tip store) {rows : List (U32 × RollbackBlock)}
    {row : U32 × RollbackBlock} (hrows : store.rollbackBlocks.toList = rows ++ [row]) :
    ∃ t, tip = some t ∧ row.1 = t.height ∧ row.2.hash = t.hash := by
  have hrow : store.rollbackBlocks[row.1]? = some row.2 := by
    rw [OrderedMap.getElem?_eq_some_iff_mem_toList, hrows]
    exact List.mem_append_right rows List.mem_cons_self
  obtain ⟨t, rfl, hle⟩ := h.below row.1 (OrderedMap.mem_of_getElem?_eq_some hrow)
  have hmem := h.run row.1 (OrderedMap.mem_of_getElem?_eq_some hrow) t rfl t.height hle le_rfl
  obtain ⟨top, htop⟩ := OrderedMap.exists_getElem?_of_mem hmem
  have hheight : row.1 = t.height := by
    by_contra hne
    -- otherwise the row of the tip stands before the last one
    have hmem' := OrderedMap.getElem?_eq_some_iff_mem_toList.1 htop
    have hascending := OrderedMap.ascending_toList store.rollbackBlocks
    rw [hrows] at hmem' hascending
    rcases List.mem_append.1 hmem' with hold | hlast
    · have hlt := (List.pairwise_append.1 hascending).2.2 _ hold row List.mem_cons_self
      exact absurd (hle.lt_of_ne hne) (compare_lt_iff_lt.1 hlt).asymm
    · exact hne (congrArg Prod.fst (List.mem_singleton.1 hlast)).symm
  refine ⟨t, rfl, hheight, ?_⟩
  rw [hheight] at hrow
  exact h.atTip t row.2 rfl hrow

/-- **The journaled blocks roll back**, the last one first, each with its own hash. -/
theorem exists_rollbackAll (h : Journaled serde activation tip store) {hashes : List Bytes32}
    (hhashes : hashes <+: (store.rollbackBlocks.toList.map fun row ↦ row.2.hash).reverse) :
    ∃ restored, store.rollbackAll serde hashes = .ok restored := by
  generalize hrows : store.rollbackBlocks.toList = rows at hhashes
  induction rows using List.reverseRecOn generalizing store tip hashes with
  | nil =>
    rw [List.prefix_nil.1 hhashes]
    exact ⟨store, rfl⟩
  | append_singleton rows row ih =>
    rw [List.map_append, List.map_cons, List.map_nil, List.reverse_append, List.reverse_singleton,
      List.singleton_append, List.prefix_cons_iff] at hhashes
    rcases hhashes with rfl | ⟨rest, rfl, hrest⟩
    · exact ⟨store, rfl⟩
    · obtain ⟨t, rfl, hheight, hhash⟩ := h.getLast hrows
      have hmem : t.height ∈ store.rollbackBlocks := by
        refine OrderedMap.mem_of_getElem?_eq_some (v := row.2) ?_
        rw [OrderedMap.getElem?_eq_some_iff_mem_toList, hrows, ← hheight]
        exact List.mem_append_right rows List.mem_cons_self
      obtain ⟨previous, -, -, -, -, hroll, hnext⟩ := h.exists_rollbackTip hmem
      have hremaining : (store.restored serde t.height previous).rollbackBlocks.toList = rows := by
        have hascending := OrderedMap.ascending_toList store.rollbackBlocks
        rw [hrows] at hascending
        rw [Store.restored, ExtTreeMap.toList_filter, hrows, List.filter_append,
          List.filter_eq_self.2,
          List.filter_eq_nil_iff.2, List.append_nil]
        · intro last hlast
          rw [List.mem_singleton.1 hlast, hheight]
          simp
        · intro older holder
          have hlt := (List.pairwise_append.1 hascending).2.2 older holder row List.mem_cons_self
          rw [hheight] at hlt
          exact decide_eq_true (compare_lt_iff_lt.1 hlt).ne
      obtain ⟨restored, hrestored⟩ := ih hnext hremaining hrest
      refine ⟨restored, ?_⟩
      rw [Store.rollbackAll, List.foldlM_cons, hhash, hroll]
      exact hrestored

/-- **Retention.** The last blocks, as many as the store has to retain, survive a finalization. -/
theorem exists_rollbackAll_finalized (h : Journaled serde activation tip store) {height : U32}
    (hfinalize : store.finalizeThrough height = .ok next) :
    ∃ restored, next.rollbackAll serde ((store.rollbackBlocks.toList.map fun row ↦
      row.2.hash).reverse.take store.identity.minimumRollbackBlocks.val) = .ok restored := by
  refine (h.finalizeThrough hfinalize).1.exists_rollbackAll ?_
  obtain ⟨t, htip, hle, hretention, hnext⟩ := Store.finalizeThrough_eq_ok_iff.1 hfinalize
  rw [h.readTip, Except.ok.injEq] at htip
  subst htip
  have hblocks : next.rollbackBlocks.toList =
      store.rollbackBlocks.toList.filter fun row ↦ decide (height < row.1) := by
    rw [hnext]
    exact ExtTreeMap.toList_filter
  generalize hold : (store.rollbackBlocks.toList.filter fun row ↦ !decide (height < row.1)) = old
  generalize hkept : (store.rollbackBlocks.toList.filter fun row ↦ decide (height < row.1)) =
    kept at hblocks
  have hsplit : old ++ kept = store.rollbackBlocks.toList := by
    rw [← hold, ← hkept]
    refine (OrderedMap.ascending_toList _).filter_append fun row row' hlt habove ↦ ?_
    exact decide_eq_true ((of_decide_eq_true habove).trans (compare_lt_iff_lt.1 hlt))
  rw [hblocks, ← hsplit, List.map_append, List.reverse_append]
  rcases old with - | ⟨row, old⟩
  · rw [List.map_nil, List.reverse_nil, List.append_nil]
    exact List.take_prefix _ _
  · -- a deleted row means that all heights above the finalized one have a row
    have hmem : row ∈ store.rollbackBlocks.toList.filter fun row ↦ !decide (height < row.1) := by
      rw [hold]
      exact List.mem_cons_self
    obtain ⟨hmem, hbelow⟩ := List.mem_filter.1 hmem
    have hrow := OrderedMap.mem_of_getElem?_eq_some
      (OrderedMap.getElem?_eq_some_iff_mem_toList.2 hmem)
    have hrow_le : row.1 ≤ height := by simpa using hbelow
    have hsubset : Finset.Ioc height t.height ⊆ (kept.map Prod.fst).toFinset := by
      intro later hlater
      obtain ⟨hlt, hle'⟩ := Finset.mem_Ioc.1 hlater
      have hpresent := h.run row.1 hrow t rfl later (hrow_le.trans hlt.le) hle'
      obtain ⟨row', hrow'⟩ := OrderedMap.exists_getElem?_of_mem hpresent
      rw [List.mem_toFinset, ← hkept, List.mem_map]
      exact ⟨(later, row'), List.mem_filter.2
        ⟨OrderedMap.getElem?_eq_some_iff_mem_toList.1 hrow', decide_eq_true hlt⟩, rfl⟩
    have hcount : t.height.val - height.val ≤ kept.length :=
      calc t.height.val - height.val = (Finset.Ioc height t.height).card := (Fin.card_Ioc _ _).symm
        _ ≤ (kept.map Prod.fst).toFinset.card := Finset.card_le_card hsubset
        _ ≤ (kept.map Prod.fst).length := List.toFinset_card_le _
        _ = kept.length := List.length_map _
    rw [List.take_append_of_le_length (by rw [List.length_reverse, List.length_map]; omega)]
    exact List.take_prefix _ _

end Store.Journaled

/-! ### Every run -/

/-- The delta a reply carries. -/
def Reply.stateDelta : Reply → Option StateDelta
  | applied (.ok outcome) => some outcome.stateDelta
  | rolledBack (.ok delta) => some delta
  | _ => none

/-- A delta that a reducer reports in some run. -/
def ReportsDelta (parameters : Parameters) (parent : Bytes32) (verifier : ProofVerifier)
    (delta : StateDelta) : Prop :=
  ∃ start calls replies reducer, Reducer.new parameters parent verifier = .ok start ∧
    start.run calls = some (replies, reducer) ∧ ∃ reply ∈ replies, reply.stateDelta = some delta

/-- The call that a reply of a run answers. -/
theorem Reducer.exists_call_of_mem {start reducer : Reducer} {calls : List Call}
    {replies : List Reply} {reply : Reply} (hrun : start.run calls = some (replies, reducer))
    (hmem : reply ∈ replies) :
    ∃ before earlier state c next, start.run before = some (earlier, state) ∧
      state.call c = some (reply, next) := by
  induction calls generalizing start replies with
  | nil =>
    rw [Reducer.run, Option.some.injEq, Prod.mk.injEq] at hrun
    rw [← hrun.1] at hmem
    exact absurd hmem List.not_mem_nil
  | cons c calls ih =>
    obtain ⟨first, next, rest, hcall, hrest, rfl⟩ := Reducer.run_cons_eq_some_iff.1 hrun
    rcases List.mem_cons.1 hmem with rfl | hmem
    · exact ⟨[], [], start, c, next, rfl, hcall⟩
    · obtain ⟨before, earlier, state, c', next', hbefore, hreply⟩ := ih hrest hmem
      refine ⟨c :: before, first :: earlier, state, c', next', ?_, hreply⟩
      exact Reducer.run_cons_eq_some_iff.2 ⟨first, next, earlier, hcall, hbefore, rfl⟩

/-- A reported delta that starts without a tip ends at activation. -/
theorem ReportsDelta.activation {parameters : Parameters} {parent : Bytes32}
    {verifier : ProofVerifier} {delta : StateDelta}
    (h : ReportsDelta parameters parent verifier delta)
    (hfrom : delta.fromTip = none) : ∀ t, delta.toTip = some t →
      t.height = parameters.activationHeight := by
  obtain ⟨start, calls, replies, final, hnew, hrun, reply, hmem, hdelta⟩ := h
  obtain ⟨before, earlier, reducer, c, next, hbefore, hcall⟩ := Reducer.exists_call_of_mem hrun hmem
  have hreached : FromNew parameters parent verifier reducer :=
    ⟨start, before, earlier, hnew, hbefore⟩
  intro t ht
  rcases c with ⟨block, evidence⟩ | expectedHash | height
  · rw [Reducer.call, Option.map_eq_some_iff] at hcall
    obtain ⟨⟨result, next'⟩, happly, heq⟩ := hcall
    rw [Prod.mk.injEq] at heq
    obtain ⟨rfl, rfl⟩ := heq
    rcases result with e | outcome
    · exact absurd hdelta (by simp [Reply.stateDelta])
    · rw [Reply.stateDelta, Option.some.injEq] at hdelta
      obtain ⟨supplied, _, _, _, _, o, hadmission, -, -, hnext, rfl⟩ :=
        Reducer.applyBlockDetailed_eq_ok_iff.1 happly
      rw [← hdelta] at hfrom ht
      have hinv := hreached.inv
      have hnone : reducer.tipHeight = none := Option.map_eq_none_iff.1 hfrom
      rw [ScanReducer.Inv, show reducer.scan.tipHeight = none from hnone] at hinv
      have hheight := (admission_eq_ok hadmission).1
      rw [show reducer.nextHeight = _ from hinv.1, Option.some.injEq] at hheight
      have hparameters : reducer.scan.rules.parameters = parameters := hreached.parameters_eq
      rw [hparameters] at hheight
      rw [hnext] at ht
      rw [← Option.some.inj ht, ← hheight]
  · -- a reducer that rolled a block back had a tip
    rw [Reducer.call, Option.some.injEq, Prod.mk.injEq] at hcall
    obtain ⟨rfl, rfl⟩ := hcall
    rcases hroll : reducer.rollbackTipDetailed expectedHash with ⟨e | back, next⟩
    · rw [hroll] at hdelta
      exact absurd hdelta (by simp [Reply.stateDelta])
    · rw [hroll, Reply.stateDelta, Option.some.injEq] at hdelta
      rcases hlast : reducer.history.getLast? with - | undo
      · rw [Reducer.rollbackTipDetailed, hlast] at hroll
        exact absurd (congrArg Prod.fst hroll) (by simp)
      · have hback := Reducer.rollbackTipDetailed_delta hlast hroll
        obtain ⟨height, hheight, -⟩ := hreached.chained.below undo (List.mem_of_getLast? hlast)
        rw [← hdelta, hback] at hfrom
        exact absurd hfrom (by simp [Reducer.tip, hheight])
  · rw [Reducer.call, Option.some.injEq, Prod.mk.injEq] at hcall
    rw [← hcall.1] at hdelta
    exact absurd hdelta (by simp [Reply.stateDelta])

/-- Perform calls in order. -/
def Store.run (serde : Serde B HeadRecord) (store : Store B) (calls : List StoreCall) : Store B :=
  calls.foldl (fun store c ↦ (store.call serde c).2) store

/-- The calls feed the store the deltas of one reducer only. -/
def Feeds (parameters : Parameters) (parent : Bytes32) (verifier : ProofVerifier)
    (calls : List StoreCall) : Prop :=
  ∀ delta, StoreCall.applyDelta delta ∈ calls → ReportsDelta parameters parent verifier delta

namespace Store.Journaled

variable {serde : Serde B HeadRecord} {parameters : Parameters} {parent : Bytes32}
  {verifier : ProofVerifier} {tip : Option ReducerTip} {store : Store B}

/-- **One call**, whether it succeeds or not. -/
theorem call (h : Journaled serde parameters.activationHeight tip store) (hserde : serde.RoundTrips)
    (c : StoreCall)
    (hfeeds : ∀ delta, c = .applyDelta delta → ReportsDelta parameters parent verifier delta) :
    (∃ tip', Journaled serde parameters.activationHeight tip' (store.call serde c).2) ∧
      ∀ f, store.finalizedHeight = some f →
        ∃ f', (store.call serde c).2.finalizedHeight = some f' ∧ f ≤ f' := by
  rcases c with delta | expectedHash | height
  · rw [Store.call]
    rcases happly : store.applyDelta serde delta with e | next
    · exact ⟨⟨tip, h⟩, fun f hf ↦ ⟨f, hf, le_rfl⟩⟩
    · obtain ⟨hnext, hfinalized, -⟩ := h.applyDelta hserde happly (hfeeds delta rfl).activation
      exact ⟨⟨_, hnext⟩, fun f hf ↦ ⟨f, hfinalized.trans hf, le_rfl⟩⟩
  · rw [Store.call]
    rcases hroll : store.rollbackTip serde expectedHash with e | ⟨previous, next⟩
    · exact ⟨⟨tip, h⟩, fun f hf ↦ ⟨f, hf, le_rfl⟩⟩
    · obtain ⟨t, -, -, hnext, hfinalized⟩ := h.rollbackTip hroll
      exact ⟨⟨previous, hnext⟩, fun f hf ↦ ⟨f, hfinalized.trans hf, le_rfl⟩⟩
  · rw [Store.call]
    rcases hfinalize : store.finalizeThrough height with e | next
    · exact ⟨⟨tip, h⟩, fun f hf ↦ ⟨f, hf, le_rfl⟩⟩
    · obtain ⟨hnext, hmono⟩ := h.finalizeThrough hfinalize
      exact ⟨⟨tip, hnext⟩, hmono⟩

/-- **Every run.** -/
theorem runCalls (h : Journaled serde parameters.activationHeight tip store)
    (hserde : serde.RoundTrips)
    {calls : List StoreCall} (hfeeds : Feeds parameters parent verifier calls) :
    ∃ tip', Journaled serde parameters.activationHeight tip' (store.run serde calls) := by
  induction calls generalizing store tip with
  | nil => exact ⟨tip, h⟩
  | cons c calls ih =>
    obtain ⟨⟨tip', hnext⟩, -⟩ := h.call hserde c fun delta hc ↦
      hfeeds delta (hc ▸ List.mem_cons_self)
    exact ih hnext fun delta hmem ↦ hfeeds delta (List.mem_cons_of_mem c hmem)

end Store.Journaled

/-- **The journal and retention invariant of the store.** -/
theorem store_journal_invariant {serde : Serde B HeadRecord} (hserde : serde.RoundTrips)
    (identity : StoreIdentity) {parameters : Parameters} {parent : Bytes32}
    {verifier : ProofVerifier} {calls : List StoreCall}
    (hfeeds : Feeds parameters parent verifier calls) {store : Store B}
    (hstore : store = (Store.new identity).run serde calls) :
    (∃ tip, store.readTip = .ok tip) ∧
    (∀ t, store.readTip = .ok (some t) →
      (∃ low : Nat, ∀ height : U32,
        height ∈ store.rollbackBlocks ↔ low ≤ height.val ∧ height ≤ t.height) ∧
      (∀ row, store.rollbackBlocks[t.height]? = some row → row.hash = t.hash) ∧
      (∀ (height later : U32) (row row' : RollbackBlock),
        store.rollbackBlocks[height]? = some row → store.rollbackBlocks[later]? = some row' →
        later.val = height.val + 1 →
        decodeOptionalTip row'.previousTipHeight row'.previousTipHash =
          .ok (some ⟨height, row.hash⟩)) ∧
      ∀ f, store.finalizedHeight = some f →
        f ≤ t.height ∧ ∀ height ∈ store.rollbackBlocks, f < height) ∧
    (∀ c, Feeds parameters parent verifier [c] → ∀ f, store.finalizedHeight = some f →
      ∃ f', (store.call serde c).2.finalizedHeight = some f' ∧ f ≤ f') ∧
    (∀ expectedHash p next, store.rollbackTip serde expectedHash = .ok (some p, next) →
      next.readTip = .ok (some p) ∧ ∀ f, next.finalizedHeight = some f → f ≤ p.height) ∧
    ∀ height next, store.finalizeThrough height = .ok next →
      ∃ restored, next.rollbackAll serde ((store.rollbackBlocks.toList.map fun row ↦
        row.2.hash).reverse.take store.identity.minimumRollbackBlocks.val) = .ok restored := by
  have hnew : Store.Journaled serde parameters.activationHeight none (Store.new identity) :=
    Store.Journaled.new identity
  obtain ⟨tip, h⟩ := hnew.runCalls hserde hfeeds
  rw [← hstore] at h
  refine ⟨⟨tip, h.readTip⟩, fun t ht ↦ ?_, fun c hc ↦ ?_, fun expectedHash p next hroll ↦ ?_,
    fun height next hfinalize ↦ h.exists_rollbackAll_finalized hfinalize⟩
  · rw [h.readTip, Except.ok.injEq] at ht
    subst ht
    refine ⟨h.exists_low, fun row hrow ↦ h.atTip t row rfl hrow,
      fun height later row row' hrow hlater hsucc ↦ ?_, fun f hf ↦ ?_⟩
    · obtain ⟨hheight, hhash⟩ := h.linked height later row row' hrow hlater hsucc
      rw [hheight, hhash]
      rfl
    · obtain ⟨habove, htop, -⟩ := h.finalized f hf
      exact ⟨htop t rfl, habove⟩
  · exact (h.call hserde c fun delta hdelta ↦ hc delta (hdelta ▸ List.mem_cons_self)).2
  · obtain ⟨-, -, -, hnext, -⟩ := h.rollbackTip hroll
    exact ⟨hnext.readTip, fun f hf ↦ (hnext.finalized f hf).2.1 p rfl⟩

end Retention

namespace Sample

/-- Journal records whose bytes are the record itself. -/
def recordSerde : Serde HeadRecord HeadRecord where
  toVec := some
  fromSlice := some

/-- A store of everything that has to keep one block. -/
def storeIdentity : StoreIdentity := ⟨.regtest, .complete, 1⟩

/-- The deltas of the first three blocks. -/
def deltas : List StateDelta :=
  ((start.run [.applyBlock block0 [], .applyBlock block1 [],
    .applyBlock block2 []]).map fun result ↦
    result.1.filterMap Reply.stateDelta).getD []

/-- The deltas, and a rollback under a wrong hash. -/
def storeCalls : List StoreCall :=
  deltas.map .applyDelta ++ [.rollbackTip block0.hash]

/-- Three journaled blocks; after a finalization of two of them the last one still rolls back. -/
theorem store_journal_invariant_calls : ∃ store next restored : Store HeadRecord,
    store = (Store.new storeIdentity).run recordSerde storeCalls ∧
    store.readTip = .ok (some ⟨2, block2.hash⟩) ∧ store.rollbackBlocks.toList.length = 3 ∧
    (∃ low : Nat, ∀ height : U32, height ∈ store.rollbackBlocks ↔ low ≤ height.val ∧ height ≤ 2) ∧
    store.finalizeThrough 1 = .ok next ∧
    next.rollbackAll recordSerde [block2.hash] = .ok restored := by
  have hserde : recordSerde.RoundTrips := fun record ↦ ⟨record, rfl, rfl⟩
  have hfeeds : Feeds parameters parent verifier storeCalls := by
    intro delta hmem
    rw [storeCalls, List.mem_append, List.mem_map] at hmem
    rcases hmem with ⟨delta', hmem, heq⟩ | hmem
    · rw [← StoreCall.applyDelta.inj heq]
      rw [deltas] at hmem
      rcases hrun : start.run [.applyBlock block0 [], .applyBlock block1 [], .applyBlock block2 []]
        with - | ⟨replies, reducer⟩
      · rw [hrun] at hmem
        exact absurd hmem List.not_mem_nil
      · rw [hrun] at hmem
        obtain ⟨reply, hreply, hdelta⟩ := List.mem_filterMap.1 hmem
        exact ⟨start, _, replies, reducer, new_eq_start, hrun, reply, hreply, hdelta⟩
    · exact absurd hmem (by simp)
  generalize hstore : (Store.new storeIdentity).run recordSerde storeCalls = store
  have htip : store.readTip = .ok (some ⟨2, block2.hash⟩) := by
    rw [← hstore]
    decide +kernel
  have hlength : store.rollbackBlocks.toList.length = 3 := by
    rw [← hstore]
    decide +kernel
  have hhashes : (store.rollbackBlocks.toList.map fun row ↦ row.2.hash).reverse.take
      store.identity.minimumRollbackBlocks.val = [block2.hash] := by
    rw [← hstore]
    decide +kernel
  have hfinalize : (store.finalizeThrough 1).toBool = true := by
    rw [← hstore]
    decide +kernel
  rcases hresult : store.finalizeThrough 1 with e | next
  · rw [hresult] at hfinalize
    exact absurd hfinalize (by simp [Except.toBool])
  obtain ⟨-, hrun, -, -, hretention⟩ :=
    store_journal_invariant hserde storeIdentity hfeeds hstore.symm
  obtain ⟨restored, hrestored⟩ := hretention 1 next hresult
  rw [hhashes] at hrestored
  exact ⟨store, next, restored, rfl, htip, hlength, (hrun _ htip).1, hresult, hrestored⟩

end Sample

end CoppiceNames
