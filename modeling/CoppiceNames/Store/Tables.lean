import CoppiceNames.Library.Checked
import CoppiceNames.Library.ChildTable
import CoppiceNames.Reducer.Snapshot

/-!
# The tables of the SQLite store

`SqliteNamesTransaction` of `coppice-names-sqlite`: the authoritative tables, the rollback journal
with its two child tables, and the operations `apply_delta`, `rollback_tip` and `finalize_through`.
A statement that fails makes its operation fail, and the savepoint around the operation then undoes
what it wrote; so an operation returns the new tables or an error, and `Store.call` keeps the old
tables in the second case.

A column that is only written from the encoding of a value (`name_id`, hashes, references) holds
that value here. A `HeadRecord` has the columns of a `StoredHead`. The serialized records of the
rollback journal are byte strings `B`, read and written by `serde_json` (`Serde`).
-/

open Std

namespace CoppiceNames

/-- `Coverage`: what the store is authenticated for. -/
inductive Coverage
  | complete
  | exact (nameId : NameId)
  | owned
  deriving DecidableEq

/-- `StoreError`, as far as the three operations return it. -/
inductive StoreError
  | sqlite
  | encoding
  | coverageViolation
  | tipMismatch
  | nonSequentialDelta
  | authoritativeRecordMismatch
  | missingRollbackJournal
  | wrongTipHash
  | finalizationBeyondTip
  | insufficientRollbackRetention
  | invalidStoredRecord
  deriving DecidableEq, Repr

/-- `MissingAuthority`. -/
inductive MissingAuthority
  | authoritative
  | insufficientCoverage
  | staleTip
  deriving DecidableEq, Repr

/-- `StoreIdentity`, as far as the operations read it. -/
structure StoreIdentity where
  network : Network
  coverage : Coverage
  minimumRollbackBlocks : U32

/-- `HeadRecord`: the same columns as a stored head. -/
abbrev HeadRecord := StoredHead

/-- A row of `rollback_blocks`. -/
structure RollbackBlock where
  hash : Bytes32
  previousTipHeight : Option U32
  previousTipHash : Option Bytes32
  deriving DecidableEq

/-- The tables, with the three columns of the metadata row that change. -/
structure Store (B : Type) where
  identity : StoreIdentity
  tipHeight : Option U32
  tipHash : Option Bytes32
  finalizedHeight : Option U32
  heads : OrderedMap NameId HeadRecord
  pendingCommits : OrderedMap CommitRef Bytes32
  rollbackBlocks : OrderedMap U32 RollbackBlock
  rollbackHeads : ChildTable U32 NameId (Option B)
  rollbackCommits : ChildTable U32 CommitRef (Option Bytes32)

/-- `ok_or`. -/
def okOr {A : Type} (value : Option A) (error : StoreError) : Except StoreError A :=
  match value with
  | some a => .ok a
  | none => .error error

/-- Return the error unless the condition holds. -/
def ensure (condition : Prop) [Decidable condition] (error : StoreError) : Except StoreError Unit :=
  if condition then .ok () else .error error

/-- `decode_optional_tip`. -/
def decodeOptionalTip : Option U32 → Option Bytes32 → Except StoreError (Option ReducerTip)
  | none, none => .ok none
  | some height, some hash => .ok (some ⟨height, hash⟩)
  | _, _ => .error .invalidStoredRecord

section Tables

variable [Primitives]

/-- `validate_head`. -/
def validateHead (nameId : NameId) (record : HeadRecord) (network : Network)
    (tipHeight : Option U32) : Except StoreError Unit :=
  match Name.parse record.name with
  | .error _ => .error .invalidStoredRecord
  | .ok name =>
    match name.id, CanonicalUa.parse network record.ua, FieldElement.fromBytes record.commitment,
        FieldElement.fromBytes record.futureNf with
    | .ok id, .ok _, .ok _, .ok _ =>
      ensure (id = nameId ∧ ¬ (record.expiryHeight < record.producer.height ∨
        record.terminalHeight.any (fun height ↦ height < record.producer.height) ∨
        tipHeight.any (fun tip ↦ record.producer.height > tip ∨
          record.terminalHeight.any fun height ↦ height > tip))) .invalidStoredRecord
    | _, _, _, _ => .error .invalidStoredRecord

/-- The check of an optional record. -/
def validateRecord (nameId : NameId) (record : Option HeadRecord) (network : Network)
    (tipHeight : Option U32) : Except StoreError Unit :=
  match record with
  | none => .ok ()
  | some record => validateHead nameId record network tipHeight

/-- No change of a head outside the coverage. -/
def Coverage.admits (coverage : Coverage) (heads : List HeadChange) : Bool :=
  match coverage with
  | .exact expected => heads.all fun change ↦ change.nameId = expected
  | _ => true

namespace Store

variable {B : Type} (serde : Serde B HeadRecord) (store : Store B)

omit [Primitives] in
/-- The store after `initialize_wallet_connection` on a new database. -/
def new (identity : StoreIdentity) : Store B where
  identity := identity
  tipHeight := none
  tipHash := none
  finalizedHeight := none
  heads := ∅
  pendingCommits := ∅
  rollbackBlocks := ∅
  rollbackHeads := ∅
  rollbackCommits := ∅

/-! ### Statements -/

/-- `read_tip`. -/
def readTip : Except StoreError (Option ReducerTip) :=
  decodeOptionalTip store.tipHeight store.tipHash

/-- `write_tip`. -/
def writeTip (tip : Option ReducerTip) : Store B :=
  { store with tipHeight := tip.map ReducerTip.height, tipHash := tip.map ReducerTip.hash }

/-- `read_head`. -/
def readHead (nameId : NameId) : Option HeadRecord := store.heads[nameId]?

/-- `write_head`. -/
def writeHead (nameId : NameId) (record : Option HeadRecord) : Store B :=
  { store with heads := OrderedMap.put store.heads nameId record }

/-- `read_commit`. -/
def readCommit (reference : CommitRef) : Option Bytes32 := store.pendingCommits[reference]?

/-- `write_commit`. -/
def writeCommit (reference : CommitRef) (commitment : Option Bytes32) : Store B :=
  { store with pendingCommits := OrderedMap.put store.pendingCommits reference commitment }

/-- `INSERT INTO rollback_blocks`. -/
def insertRollbackBlock (height : U32) (row : RollbackBlock) : Except StoreError (Store B) :=
  if store.rollbackBlocks.contains height then .error .sqlite
  else .ok { store with rollbackBlocks := store.rollbackBlocks.insert height row }

/-- `INSERT INTO rollback_heads`, under its foreign and its primary key. -/
def insertRollbackHead (height : U32) (nameId : NameId) (record : Option B) :
    Except StoreError (Store B) :=
  if store.rollbackBlocks.contains height = false then .error .sqlite
  else
    match store.rollbackHeads.insert height nameId record with
    | none => .error .sqlite
    | some rollbackHeads => .ok { store with rollbackHeads := rollbackHeads }

/-- `INSERT INTO rollback_commits`, under its foreign and its primary key. -/
def insertRollbackCommit (height : U32) (reference : CommitRef) (commitment : Option Bytes32) :
    Except StoreError (Store B) :=
  if store.rollbackBlocks.contains height = false then .error .sqlite
  else
    match store.rollbackCommits.insert height reference commitment with
    | none => .error .sqlite
    | some rollbackCommits => .ok { store with rollbackCommits := rollbackCommits }

/-- `DELETE FROM rollback_blocks` of the rows not kept, which cascades. -/
def keepRollbackBlocks (kept : U32 → Bool) : Store B :=
  { store with
    rollbackBlocks := store.rollbackBlocks.filter fun height _ ↦ kept height
    rollbackHeads := store.rollbackHeads.cascade kept
    rollbackCommits := store.rollbackCommits.cascade kept }

/-! ### Operations -/

/-- The record of a journal row as bytes. -/
def encodeRecord (record : Option HeadRecord) : Except StoreError (Option B) :=
  match record with
  | none => .ok none
  | some record => (okOr (serde.toVec record) .encoding).map some

/-- One step of the loop over the head changes of a delta. -/
def applyHeadChange (fromTip : Option ReducerTip) (toTip : ReducerTip) (store : Store B)
    (change : HeadChange) : Except StoreError (Store B) := do
  validateRecord change.nameId (change.previous.map Head.store) store.identity.network
    (fromTip.map ReducerTip.height)
  validateRecord change.nameId (change.current.map Head.store) store.identity.network
    (some toTip.height)
  ensure (store.readHead change.nameId = change.previous.map Head.store)
    .authoritativeRecordMismatch
  let previous ← encodeRecord serde (change.previous.map Head.store)
  let store ← store.insertRollbackHead toTip.height change.nameId previous
  return store.writeHead change.nameId (change.current.map Head.store)

omit [Primitives] in
/-- One step of the loop over the COMMIT changes of a delta. -/
def applyCommitChange (toTip : ReducerTip) (store : Store B) (change : CommitChange) :
    Except StoreError (Store B) := do
  ensure (store.readCommit change.reference = change.previous.map Commitment.bytes)
    .authoritativeRecordMismatch
  let store ← store.insertRollbackCommit toTip.height change.reference
    (change.previous.map Commitment.bytes)
  return store.writeCommit change.reference (change.current.map Commitment.bytes)

/-- `apply_delta`. -/
def applyDelta (delta : StateDelta) : Except StoreError (Store B) := do
  let tip ← store.readTip
  ensure (tip = delta.fromTip) .tipMismatch
  let toTip ← okOr delta.toTip .nonSequentialDelta
  ensure (delta.fromTip.all fun tip ↦
    U32.checkedAdd tip.height 1 = some toTip.height ∧ tip.hash ≠ toTip.hash) .nonSequentialDelta
  ensure (store.identity.coverage.admits delta.heads) .coverageViolation
  let store ← store.insertRollbackBlock toTip.height
    ⟨toTip.hash, delta.fromTip.map ReducerTip.height, delta.fromTip.map ReducerTip.hash⟩
  let store ← delta.heads.foldlM (applyHeadChange serde delta.fromTip toTip) store
  let store ← delta.commits.foldlM (applyCommitChange toTip) store
  return store.writeTip (some toTip)

/-- One step of the loop over the journaled heads of the tip. -/
def restoreHeadRow (previousTip : Option ReducerTip) (store : Store B)
    (row : NameId × Option B) : Except StoreError (Store B) :=
  match row.2 with
  | none => .ok (store.writeHead row.1 none)
  | some bytes => do
    let record ← okOr (serde.fromSlice bytes) .encoding
    validateHead row.1 record store.identity.network (previousTip.map ReducerTip.height)
    return store.writeHead row.1 (some record)

/-- `rollback_tip`. -/
def rollbackTip (expectedHash : Bytes32) : Except StoreError (Option ReducerTip × Store B) := do
  let current ← store.readTip
  let tip ← okOr current .missingRollbackJournal
  ensure (tip.hash = expectedHash) .wrongTipHash
  let row ← okOr (store.rollbackBlocks[tip.height]?.filter fun row ↦ row.hash = expectedHash)
    .missingRollbackJournal
  let previousTip ← decodeOptionalTip row.previousTipHeight row.previousTipHash
  let restored ← (store.rollbackHeads.rows tip.height).toList.foldlM
    (restoreHeadRow serde previousTip) store
  let restored := (store.rollbackCommits.rows tip.height).toList.foldl
    (fun store row ↦ store.writeCommit row.1 row.2) restored
  return (previousTip, (restored.keepRollbackBlocks fun height ↦ height ≠ tip.height).writeTip
    previousTip)

omit [Primitives] in
/-- `finalize_through`. -/
def finalizeThrough (height : U32) : Except StoreError (Store B) := do
  let current ← store.readTip
  let tip ← okOr current .finalizationBeyondTip
  ensure (height ≤ tip.height) .finalizationBeyondTip
  let latestSafe ← okOr (U32.checkedSub tip.height store.identity.minimumRollbackBlocks)
    .insufficientRollbackRetention
  ensure (height ≤ latestSafe) .insufficientRollbackRetention
  return { store.keepRollbackBlocks fun row ↦ height < row with
    finalizedHeight :=
      if store.finalizedHeight.all fun finalized ↦ finalized < height then some height
      else store.finalizedHeight }

/-! ### Reading -/

/-- `missing_authority`. -/
def missingAuthority (nameId : NameId) (requestedTip : ReducerTip) :
    Except StoreError MissingAuthority := do
  let tip ← store.readTip
  if tip ≠ some requestedTip then return .staleTip
  return match store.identity.coverage with
    | .complete => .authoritative
    | .exact expected => if expected = nameId then .authoritative else .insufficientCoverage
    | .owned => .insufficientCoverage

end Store

/-- A call of the store. -/
inductive StoreCall
  | applyDelta (delta : StateDelta)
  | rollbackTip (expectedHash : Bytes32)
  | finalizeThrough (height : U32)

/-- Perform a call inside a savepoint: the tables after a failed call are those before it. -/
def Store.call {B : Type} (serde : Serde B HeadRecord) (store : Store B) :
    StoreCall → Except StoreError Unit × Store B
  | .applyDelta delta =>
    match store.applyDelta serde delta with
    | .ok next => (.ok (), next)
    | .error e => (.error e, store)
  | .rollbackTip expectedHash =>
    match store.rollbackTip serde expectedHash with
    | .ok result => (.ok (), result.2)
    | .error e => (.error e, store)
  | .finalizeThrough height =>
    match store.finalizeThrough height with
    | .ok next => (.ok (), next)
    | .error e => (.error e, store)

/-! ### What an operation that succeeds did -/

omit [Primitives] in
@[simp]
theorem okOr_eq_ok_iff {A : Type} {value : Option A} {error : StoreError} {a : A} :
    okOr value error = .ok a ↔ value = some a := by
  rcases value with - | b
  · simp [okOr]
  · simp [okOr]

omit [Primitives] in
@[simp]
theorem ensure_eq_ok_iff {condition : Prop} [Decidable condition] {error : StoreError} {u : Unit} :
    ensure condition error = .ok u ↔ condition := by
  rw [ensure]
  split
  · simp_all
  · simp_all

omit [Primitives] in
@[simp]
theorem decodeOptionalTip_map (tip : Option ReducerTip) :
    decodeOptionalTip (tip.map ReducerTip.height) (tip.map ReducerTip.hash) = .ok tip := by
  rcases tip with - | tip
  · rfl
  · rfl

namespace Store

variable {B : Type} {serde : Serde B HeadRecord} {store next : Store B}

omit [Primitives] in
theorem insertRollbackBlock_eq_ok_iff {height : U32} {row : RollbackBlock} :
    store.insertRollbackBlock height row = .ok next ↔ height ∉ store.rollbackBlocks ∧
      next = { store with rollbackBlocks := store.rollbackBlocks.insert height row } := by
  rw [insertRollbackBlock, ← ExtTreeMap.contains_iff_mem]
  split
  · rename_i htaken
    simp [htaken]
  · rename_i hfree
    simp [hfree, eq_comm]

omit [Primitives] in
theorem insertRollbackHead_eq_ok_iff {height : U32} {nameId : NameId} {record : Option B} :
    store.insertRollbackHead height nameId record = .ok next ↔ height ∈ store.rollbackBlocks ∧
      ∃ rows, store.rollbackHeads.insert height nameId record = some rows ∧
        next = { store with rollbackHeads := rows } := by
  rw [insertRollbackHead, ← ExtTreeMap.contains_iff_mem]
  split
  · rename_i hmissing
    simp [hmissing]
  · rename_i hparent
    rw [Bool.not_eq_false] at hparent
    rcases store.rollbackHeads.insert height nameId record with - | rows
    · simp
    · simp [hparent, eq_comm]

omit [Primitives] in
theorem insertRollbackCommit_eq_ok_iff {height : U32} {reference : CommitRef}
    {commitment : Option Bytes32} :
    store.insertRollbackCommit height reference commitment = .ok next ↔
      height ∈ store.rollbackBlocks ∧
      ∃ rows, store.rollbackCommits.insert height reference commitment = some rows ∧
        next = { store with rollbackCommits := rows } := by
  rw [insertRollbackCommit, ← ExtTreeMap.contains_iff_mem]
  split
  · rename_i hmissing
    simp [hmissing]
  · rename_i hparent
    rw [Bool.not_eq_false] at hparent
    rcases store.rollbackCommits.insert height reference commitment with - | rows
    · simp
    · simp [hparent, eq_comm]

/-- **One head change.** -/
theorem applyHeadChange_eq_ok_iff {fromTip : Option ReducerTip} {toTip : ReducerTip}
    {change : HeadChange} :
    applyHeadChange serde fromTip toTip store change = .ok next ↔
      validateRecord change.nameId (change.previous.map Head.store) store.identity.network
        (fromTip.map ReducerTip.height) = .ok () ∧
      validateRecord change.nameId (change.current.map Head.store) store.identity.network
        (some toTip.height) = .ok () ∧
      store.heads[change.nameId]? = change.previous.map Head.store ∧
      ∃ previous rows, encodeRecord serde (change.previous.map Head.store) = .ok previous ∧
        toTip.height ∈ store.rollbackBlocks ∧
        store.rollbackHeads.insert toTip.height change.nameId previous = some rows ∧
        next = { store with
          rollbackHeads := rows
          heads := OrderedMap.put store.heads change.nameId (change.current.map Head.store) } := by
  simp only [applyHeadChange, Except.bind_eq_ok_iff, ensure_eq_ok_iff, insertRollbackHead_eq_ok_iff,
    pure, Except.pure, Except.ok.injEq]
  constructor
  · rintro ⟨_, hprevious, _, hcurrent, _, hactual, bytes, hbytes, store', ⟨hparent, rows, hrows,
      rfl⟩, rfl⟩
    exact ⟨hprevious, hcurrent, hactual, bytes, rows, hbytes, hparent, hrows, rfl⟩
  · rintro ⟨hprevious, hcurrent, hactual, bytes, rows, hbytes, hparent, hrows, rfl⟩
    exact ⟨(), hprevious, (), hcurrent, (), hactual, bytes, hbytes, _, ⟨hparent, rows, hrows, rfl⟩,
      rfl⟩

omit [Primitives] in
/-- **One COMMIT change.** -/
theorem applyCommitChange_eq_ok_iff {toTip : ReducerTip} {change : CommitChange} :
    applyCommitChange toTip store change = .ok next ↔
      store.pendingCommits[change.reference]? = change.previous.map Commitment.bytes ∧
      toTip.height ∈ store.rollbackBlocks ∧
      ∃ rows, store.rollbackCommits.insert toTip.height change.reference
          (change.previous.map Commitment.bytes) = some rows ∧
        next = { store with
          rollbackCommits := rows
          pendingCommits := OrderedMap.put store.pendingCommits change.reference
            (change.current.map Commitment.bytes) } := by
  simp only [applyCommitChange, Except.bind_eq_ok_iff, ensure_eq_ok_iff,
    insertRollbackCommit_eq_ok_iff,
    pure, Except.pure, Except.ok.injEq]
  constructor
  · rintro ⟨_, hactual, store', ⟨hparent, rows, hrows, rfl⟩, rfl⟩
    exact ⟨hactual, hparent, rows, hrows, rfl⟩
  · rintro ⟨hactual, hparent, rows, hrows, rfl⟩
    exact ⟨(), hactual, _, ⟨hparent, rows, hrows, rfl⟩, rfl⟩

/-- **An applied delta.** -/
theorem applyDelta_eq_ok_iff {delta : StateDelta} : store.applyDelta serde delta = .ok next ↔
    store.readTip = .ok delta.fromTip ∧ ∃ toTip, delta.toTip = some toTip ∧
      (∀ tip, delta.fromTip = some tip →
        U32.checkedAdd tip.height 1 = some toTip.height ∧ tip.hash ≠ toTip.hash) ∧
      store.identity.coverage.admits delta.heads = true ∧
      toTip.height ∉ store.rollbackBlocks ∧
      ∃ written committed,
        delta.heads.foldlM (applyHeadChange serde delta.fromTip toTip)
          { store with
            rollbackBlocks := store.rollbackBlocks.insert toTip.height
              ⟨toTip.hash, delta.fromTip.map ReducerTip.height,
                delta.fromTip.map ReducerTip.hash⟩ } = .ok written ∧
        delta.commits.foldlM (applyCommitChange toTip) written = .ok committed ∧
        next = committed.writeTip (some toTip) := by
  simp only [applyDelta, Except.bind_eq_ok_iff, ensure_eq_ok_iff, okOr_eq_ok_iff,
    insertRollbackBlock_eq_ok_iff, pure, Except.pure, Except.ok.injEq, Option.all_eq_true,
    decide_eq_true_eq]
  constructor
  · rintro ⟨tip, htip, _, rfl, toTip, htoTip, _, hlinked, _, hcoverage, inserted, ⟨hnew, rfl⟩,
      written, hwritten, committed, hcommitted, rfl⟩
    exact ⟨htip, toTip, htoTip, hlinked, hcoverage, hnew, written, committed, hwritten, hcommitted,
      rfl⟩
  · rintro ⟨htip, toTip, htoTip, hlinked, hcoverage, hnew, written, committed, hwritten, hcommitted,
      rfl⟩
    exact ⟨_, htip, (), rfl, toTip, htoTip, (), hlinked, (), hcoverage, _, ⟨hnew, rfl⟩, written,
      hwritten, committed, hcommitted, rfl⟩

/-- **A rolled back tip.** -/
theorem rollbackTip_eq_ok_iff {expectedHash : Bytes32} {previous : Option ReducerTip} :
    store.rollbackTip serde expectedHash = .ok (previous, next) ↔
      ∃ tip row restored, store.readTip = .ok (some tip) ∧ tip.hash = expectedHash ∧
        store.rollbackBlocks[tip.height]? = some row ∧ row.hash = expectedHash ∧
        decodeOptionalTip row.previousTipHeight row.previousTipHash = .ok previous ∧
        (store.rollbackHeads.rows tip.height).toList.foldlM (restoreHeadRow serde previous) store =
          .ok restored ∧
        next = (((store.rollbackCommits.rows tip.height).toList.foldl
          (fun store row ↦ store.writeCommit row.1 row.2) restored).keepRollbackBlocks
            fun height ↦ height ≠ tip.height).writeTip previous := by
  simp only [rollbackTip, Except.bind_eq_ok_iff, ensure_eq_ok_iff, okOr_eq_ok_iff,
    pure, Except.pure,
    Except.ok.injEq, Option.filter_eq_some_iff, decide_eq_true_eq, Prod.mk.injEq]
  constructor
  · rintro ⟨current, hcurrent, tip, rfl, _, hhash, row, ⟨hrow, hsame⟩, previous', hprevious,
      restored, hrestored, rfl, rfl⟩
    exact ⟨tip, row, restored, hcurrent, hhash, hrow, hsame, hprevious, hrestored, rfl⟩
  · rintro ⟨tip, row, restored, hcurrent, hhash, hrow, hsame, hprevious, hrestored, rfl⟩
    exact ⟨some tip, hcurrent, tip, rfl, (), hhash, row, ⟨hrow, hsame⟩, previous, hprevious,
      restored, hrestored, rfl, rfl⟩

omit [Primitives] in
/-- **A finalization.** -/
theorem finalizeThrough_eq_ok_iff {height : U32} : store.finalizeThrough height = .ok next ↔
    ∃ tip, store.readTip = .ok (some tip) ∧ height ≤ tip.height ∧
      height.val + store.identity.minimumRollbackBlocks.val ≤ tip.height.val ∧
      next = { store.keepRollbackBlocks fun row ↦ height < row with
        finalizedHeight :=
          if store.finalizedHeight.all fun finalized ↦ finalized < height then some height
          else store.finalizedHeight } := by
  simp only [finalizeThrough, Except.bind_eq_ok_iff, ensure_eq_ok_iff, okOr_eq_ok_iff,
    pure, Except.pure,
    Except.ok.injEq, U32.checkedSub_eq_some_iff, Fin.le_def]
  constructor
  · rintro ⟨current, hcurrent, tip, rfl, _, hle, safe, ⟨hretention, hsafe⟩, _, hheight, rfl⟩
    exact ⟨tip, hcurrent, hle, by omega, rfl⟩
  · rintro ⟨tip, hcurrent, hle, hretention, rfl⟩
    have hlt := tip.height.isLt
    refine ⟨some tip, hcurrent, tip, rfl, (), hle,
      ⟨tip.height.val - store.identity.minimumRollbackBlocks.val, by omega⟩, ⟨by omega, rfl⟩, (),
      ?_, rfl⟩
    dsimp only
    omega

end Store

end Tables

end CoppiceNames
