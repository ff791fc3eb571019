import CoppiceNames.Library.Savepoints
import CoppiceNames.Store.Wallet

/-!
# Transactions of a host

`with_transaction` and `with_block_savepoint` of `coppice-names-sqlite`, around the operations
written out statement by statement. An operation that fails in the middle has already written some
rows; what keeps them from the database is the savepoint of the enclosing block, or the transaction.

A host program (`Host`) mixes the operations with statements on the host's own tables, opens blocks,
goes on after an operation or a block that failed, and may panic anywhere; a panic is not caught
inside the transaction. The database may fail any statement of an operation, which then writes
nothing; `BEGIN` and `COMMIT` succeed. `Host.meaning` is what the program does when every operation
is all or nothing, which is how `Store.call` treats it.

The machine publishes exactly that for a host that gives the enclosing block or transaction up after
an operation that failed, as `?` does (`Host.PassesErrorsOn`, `transaction_publishes`). A host that
goes on inside the same block or transaction publishes what the failed operation had written
(`Sample.kept_going_publishes_part`).

The host's tables include the column `core_snapshot`, which no operation reads.
-/

open Std hiding not_le not_lt

namespace CoppiceNames

section Transactions

variable [Primitives] {B W : Type} (serde : Serde B HeadRecord)

/-! ### The operations, statement by statement -/

/-- A script on the tables of the names. -/
abbrev StoreScript (B A : Type) := Script (Store B) StoreError A

/-- What a call does when it succeeds, and how it fails. -/
def Store.perform (store : Store B) (c : StoreCall) : Except StoreError (Store B) :=
  match store.call serde c with
  | (.ok (), next) => .ok next
  | (.error e, _) => .error e

namespace StoreScript

/-- A check between two statements. -/
def check {A : Type} (result : Except StoreError A) : StoreScript B A := .done result

/-- The body of the loop over the head changes of `apply_delta`. -/
def applyHeadChange (fromTip : Option ReducerTip) (toTip : ReducerTip) (change : HeadChange) :
    StoreScript B Unit := do
  let network ← .query fun store ↦ .ok store.identity.network
  check (validateRecord change.nameId (change.previous.map Head.store) network
    (fromTip.map ReducerTip.height))
  check (validateRecord change.nameId (change.current.map Head.store) network
    (some toTip.height))
  let actual ← .query fun store ↦ .ok (store.readHead change.nameId)
  check (ensure (actual = change.previous.map Head.store) .authoritativeRecordMismatch)
  let previous ← check (Store.encodeRecord serde (change.previous.map Head.store))
  .execute fun store ↦ store.insertRollbackHead toTip.height change.nameId previous
  .execute fun store ↦ .ok (store.writeHead change.nameId (change.current.map Head.store))

omit [Primitives] in
/-- The body of the loop over the COMMIT changes of `apply_delta`. -/
def applyCommitChange (toTip : ReducerTip) (change : CommitChange) : StoreScript B Unit := do
  let actual ← .query fun store ↦ .ok (store.readCommit change.reference)
  check (ensure (actual = change.previous.map Commitment.bytes) .authoritativeRecordMismatch)
  .execute fun store ↦ store.insertRollbackCommit toTip.height change.reference
    (change.previous.map Commitment.bytes)
  .execute fun store ↦ .ok (store.writeCommit change.reference
    (change.current.map Commitment.bytes))

/-- `apply_delta`. -/
def applyDelta (delta : StateDelta) : StoreScript B Unit := do
  let tip ← .query Store.readTip
  check (ensure (tip = delta.fromTip) .tipMismatch)
  let toTip ← check (okOr delta.toTip .nonSequentialDelta)
  check (ensure (delta.fromTip.all fun tip ↦
    U32.checkedAdd tip.height 1 = some toTip.height ∧ tip.hash ≠ toTip.hash) .nonSequentialDelta)
  let coverage ← .query fun store ↦ .ok store.identity.coverage
  check (ensure (coverage.admits delta.heads) .coverageViolation)
  .execute fun store ↦ store.insertRollbackBlock toTip.height
    ⟨toTip.hash, delta.fromTip.map ReducerTip.height, delta.fromTip.map ReducerTip.hash⟩
  .forEach (applyHeadChange serde delta.fromTip toTip) delta.heads
  .forEach (applyCommitChange toTip) delta.commits
  .execute fun store ↦ .ok (store.writeTip (some toTip))

/-- The body of the loop over the journaled heads of `rollback_tip`. -/
def restoreHeadRow (previousTip : Option ReducerTip) (row : NameId × Option B) :
    StoreScript B Unit :=
  match row.2 with
  | none => .execute fun store ↦ .ok (store.writeHead row.1 none)
  | some bytes => do
    let record ← check (okOr (serde.fromSlice bytes) .encoding)
    let network ← .query fun store ↦ .ok store.identity.network
    check (validateHead row.1 record network (previousTip.map ReducerTip.height))
    .execute fun store ↦ .ok (store.writeHead row.1 (some record))

/-- `rollback_tip`. -/
def rollbackTip (expectedHash : Bytes32) : StoreScript B (Option ReducerTip) := do
  let current ← .query Store.readTip
  let tip ← check (okOr current .missingRollbackJournal)
  check (ensure (tip.hash = expectedHash) .wrongTipHash)
  let found ← .query fun store ↦
    .ok (store.rollbackBlocks[tip.height]?.filter fun row ↦ row.hash = expectedHash)
  let row ← check (okOr found .missingRollbackJournal)
  let previousTip ← check (decodeOptionalTip row.previousTipHeight row.previousTipHash)
  let heads ← .query fun store ↦ .ok (store.rollbackHeads.rows tip.height).toList
  .forEach (restoreHeadRow serde previousTip) heads
  let commits ← .query fun store ↦ .ok (store.rollbackCommits.rows tip.height).toList
  .forEach (fun row ↦ .execute fun store ↦ .ok (store.writeCommit row.1 row.2)) commits
  .execute fun store ↦ .ok (store.keepRollbackBlocks fun height ↦ height ≠ tip.height)
  .execute fun store ↦ .ok (store.writeTip previousTip)
  return previousTip

omit [Primitives] in
/-- `finalize_through`. -/
def finalizeThrough (height : U32) : StoreScript B Unit := do
  let current ← .query Store.readTip
  let tip ← check (okOr current .finalizationBeyondTip)
  check (ensure (height ≤ tip.height) .finalizationBeyondTip)
  let retention ← .query fun store ↦ .ok store.identity.minimumRollbackBlocks
  let latestSafe ← check (okOr (U32.checkedSub tip.height retention)
    .insufficientRollbackRetention)
  check (ensure (height ≤ latestSafe) .insufficientRollbackRetention)
  .execute fun store ↦ .ok (store.keepRollbackBlocks fun row ↦ height < row)
  .execute fun store ↦ .ok { store with
    finalizedHeight :=
      if store.finalizedHeight.all fun finalized ↦ finalized < height then some height
      else store.finalizedHeight }

/-- The statements of a call. -/
def call : StoreCall → StoreScript B Unit
  | .applyDelta delta => applyDelta serde delta
  | .rollbackTip expectedHash => do
    let _ ← rollbackTip serde expectedHash
  | .finalizeThrough height => finalizeThrough height

/-! ### What the statements compute -/

omit [Primitives] in
theorem realizes_applyCommitChange (toTip : ReducerTip) (change : CommitChange) :
    (applyCommitChange (B := B) toTip change).Realizes fun store ↦
      (Store.applyCommitChange toTip store change).map ((), ·) := by
  refine Script.Realizes.congr ((Script.Realizes.query _).bind fun actual ↦
    (Script.Realizes.done _).bind fun _ ↦ (Script.Realizes.execute _).bind fun _ ↦
      Script.Realizes.execute _) fun store ↦ ?_
  rw [Store.applyCommitChange]
  simp only [Except.map_bind, Except.bind_map]
  rfl

theorem realizes_applyHeadChange (fromTip : Option ReducerTip) (toTip : ReducerTip)
    (change : HeadChange) :
    (applyHeadChange serde fromTip toTip change).Realizes fun store ↦
      (Store.applyHeadChange serde fromTip toTip store change).map ((), ·) := by
  refine Script.Realizes.congr ((Script.Realizes.query _).bind fun network ↦
    (Script.Realizes.done _).bind fun _ ↦ (Script.Realizes.done _).bind fun _ ↦
      (Script.Realizes.query _).bind fun actual ↦ (Script.Realizes.done _).bind fun _ ↦
        (Script.Realizes.done _).bind fun previous ↦ (Script.Realizes.execute _).bind fun _ ↦
          Script.Realizes.execute _) fun store ↦ ?_
  rw [Store.applyHeadChange]
  simp only [Except.map_bind, Except.bind_map]
  rfl

theorem realizes_applyDelta (delta : StateDelta) :
    (applyDelta serde delta).Realizes fun store ↦
      (store.applyDelta serde delta).map ((), ·) := by
  refine Script.Realizes.congr ((Script.Realizes.query _).bind fun tip ↦
    (Script.Realizes.done _).bind fun _ ↦ (Script.Realizes.done _).bind fun toTip ↦
      (Script.Realizes.done _).bind fun _ ↦ (Script.Realizes.query _).bind fun coverage ↦
        (Script.Realizes.done _).bind fun _ ↦ (Script.Realizes.execute _).bind fun _ ↦
          (Script.Realizes.forEach (realizes_applyHeadChange serde delta.fromTip toTip) _).bind
            fun _ ↦ (Script.Realizes.forEach (realizes_applyCommitChange toTip) _).bind
              fun _ ↦ Script.Realizes.execute _) fun store ↦ ?_
  rw [Store.applyDelta]
  simp only [Except.map_bind, Except.bind_map]
  rfl

theorem realizes_restoreHeadRow (previousTip : Option ReducerTip) (row : NameId × Option B) :
    (restoreHeadRow serde previousTip row).Realizes fun store ↦
      (Store.restoreHeadRow serde previousTip store row).map ((), ·) := by
  obtain ⟨nameId, previous⟩ := row
  rcases previous with - | bytes
  · exact (Script.Realizes.execute fun store : Store B ↦ .ok (store.writeHead nameId none)).congr
      fun store ↦ rfl
  · refine Script.Realizes.congr ((Script.Realizes.done _).bind fun record ↦
      (Script.Realizes.query _).bind fun network ↦ (Script.Realizes.done _).bind fun _ ↦
        Script.Realizes.execute _) fun store ↦ ?_
    rw [Store.restoreHeadRow]
    simp only [Except.map_bind, Except.bind_map]
    rfl

omit [Primitives] in
theorem realizes_writeCommits (rows : List (CommitRef × Option Bytes32)) :
    (Script.forEach (fun row ↦ .execute fun store ↦ .ok (store.writeCommit row.1 row.2))
      rows : StoreScript B Unit).Realizes fun store ↦
        .ok ((), rows.foldl (fun store row ↦ store.writeCommit row.1 row.2) store) := by
  refine (Script.Realizes.forEach (fun row ↦ Script.Realizes.execute _) rows).congr fun store ↦ ?_
  induction rows generalizing store with
  | nil => rfl
  | cons row rows ih => exact ih (store.writeCommit row.1 row.2)

theorem realizes_rollbackTip (expectedHash : Bytes32) :
    (rollbackTip serde expectedHash).Realizes fun store ↦ store.rollbackTip serde expectedHash := by
  refine Script.Realizes.congr ((Script.Realizes.query _).bind fun current ↦
    (Script.Realizes.done _).bind fun tip ↦ (Script.Realizes.done _).bind fun _ ↦
      (Script.Realizes.query _).bind fun found ↦ (Script.Realizes.done _).bind fun row ↦
        (Script.Realizes.done _).bind fun previousTip ↦ (Script.Realizes.query _).bind fun heads ↦
          (Script.Realizes.forEach (realizes_restoreHeadRow serde previousTip) _).bind fun _ ↦
            (Script.Realizes.query _).bind fun commits ↦ (realizes_writeCommits commits).bind
              fun _ ↦ (Script.Realizes.execute _).bind fun _ ↦ (Script.Realizes.execute _).bind
                fun _ ↦ Script.Realizes.done (.ok previousTip)) fun store ↦ ?_
  rw [Store.rollbackTip]
  simp only [Except.bind_map, Except.ok_bind]
  refine bind_congr fun current ↦ bind_congr fun tip ↦ bind_congr fun _ ↦ bind_congr fun row ↦
    bind_congr fun previousTip ↦ ?_
  -- the restored heads leave the journal of the COMMITs as it was
  rcases hrestored : (store.rollbackHeads.rows tip.height).toList.foldlM
    (Store.restoreHeadRow serde previousTip) store with e | restored
  · rfl
  · rw [Except.ok_bind, Except.ok_bind, Store.foldlM_restoreHeadRow_frame hrestored]
    rfl

omit [Primitives] in
theorem realizes_finalizeThrough (height : U32) :
    (finalizeThrough (B := B) height).Realizes fun store ↦
      (store.finalizeThrough height).map ((), ·) := by
  refine Script.Realizes.congr ((Script.Realizes.query _).bind fun current ↦
    (Script.Realizes.done _).bind fun tip ↦ (Script.Realizes.done _).bind fun _ ↦
      (Script.Realizes.query _).bind fun retention ↦ (Script.Realizes.done _).bind fun latestSafe ↦
        (Script.Realizes.done _).bind fun _ ↦ (Script.Realizes.execute _).bind fun _ ↦
          Script.Realizes.execute _) fun store ↦ ?_
  rw [Store.finalizeThrough]
  simp only [Except.map_bind, Except.bind_map]
  rfl

/-- **The statements of a call do what the call does**, and fail as it does. -/
theorem realizes_call (c : StoreCall) :
    (call serde c).Realizes fun store ↦ (store.perform serde c).map ((), ·) := by
  rcases c with delta | expectedHash | height
  · refine (realizes_applyDelta serde delta).congr fun store ↦ ?_
    rw [Store.perform, Store.call]
    rcases store.applyDelta serde delta with e | next
    · rfl
    · rfl
  · refine Script.Realizes.congr ((realizes_rollbackTip serde expectedHash).bind fun _ ↦
      Script.Realizes.done (.ok ())) fun store ↦ ?_
    rw [Store.perform, Store.call]
    rcases store.rollbackTip serde expectedHash with e | next
    · rfl
    · rfl
  · refine (realizes_finalizeThrough height).congr fun store ↦ ?_
    rw [Store.perform, Store.call]
    rcases store.finalizeThrough height with e | next
    · rfl
    · rfl

end StoreScript

/-! ### Host programs -/

/-- What a host does inside `with_transaction`, on the tables of the names and its own `W`. -/
inductive Host (B W : Type) : Type → Type 1
  | done {A : Type} (result : Except StoreError A) : Host B W A
  | panic {A : Type} : Host B W A
  /-- A statement on the host's own tables. -/
  | own {X A : Type} (run : W → X × W) (next : X → Host B W A) : Host B W A
  /-- A read of the tables of the names. -/
  | read {X A : Type} (run : Store B → X) (next : X → Host B W A) : Host B W A
  /-- An operation, with the place of a statement that the database fails, if it does, and what
  follows on its result. -/
  | operation {A : Type} (c : StoreCall) (fault : Option ℕ)
    (next : Except StoreError Unit → Host B W A) : Host B W A
  /-- `with_block_savepoint`, and what follows on its result. -/
  | block {X A : Type} (body : Host B W X) (next : Except StoreError X → Host B W A) : Host B W A

/-- The savepoint of `with_block_savepoint`. -/
def blockSavepoint : String := "coppice_names_block"

/-- The statements of a call, one of which may fail. -/
def StoreCall.script (c : StoreCall) (fault : Option ℕ) : StoreScript B Unit :=
  match fault with
  | none => StoreScript.call serde c
  | some n => (StoreScript.call serde c).failingAt .sqlite n

/-- The failing statement is reached. -/
def StoreCall.faults (c : StoreCall) (fault : Option ℕ) (store : Store B) : Bool :=
  fault.any fun n ↦ n < (StoreScript.call serde c).steps store

/-- An operation that is all or nothing. -/
def StoreCall.attempt (c : StoreCall) (fault : Option ℕ) (store : Store B) :
    Except StoreError (Store B) :=
  if c.faults serde fault store then .error .sqlite else store.perform serde c

namespace Host

variable {A : Type}

/-- The program as a script. -/
def script {A : Type} : Host B W A → Script (Store B × W) StoreError A
  | .done result => .done result
  | .panic => .panic
  | .own run next =>
    .statement (fun db ↦ ((run db.2).1, db.1, (run db.2).2)) fun x ↦ (next x).script
  | .read run next => .statement (fun db ↦ (run db.1, db)) fun x ↦ (next x).script
  | .operation c fault next =>
    (c.script serde fault).onFst.handle fun result ↦ (next result).script
  | .block body next => .block body.script fun result ↦ (next result).script

/-- **What the program means**: every operation is all or nothing, and so is every block. -/
def meaning {A : Type} : Host B W A → Store B × W → Script.Outcome StoreError A × Store B × W
  | .done result, db => (.returned result, db)
  | .panic, db => (.panicked, db)
  | .own run next, db => (next (run db.2).1).meaning (db.1, (run db.2).2)
  | .read run next, db => (next (run db.1)).meaning db
  | .operation c fault next, db =>
    match c.attempt serde fault db.1 with
    | .ok store => (next (.ok ())).meaning (store, db.2)
    | .error e => (next (.error e)).meaning db
  | .block body next, db =>
    match body.meaning db with
    | (.returned (.ok x), db') => (next (.ok x)).meaning db'
    | (.returned (.error e), _) => (next (.error e)).meaning db
    | (.panicked, db') => (.panicked, db')

/-- The calls that succeeded outside every block that failed, in order. -/
def kept {A : Type} : Host B W A → Store B × W → List StoreCall
  | .done _, _ => []
  | .panic, _ => []
  | .own run next, db => (next (run db.2).1).kept (db.1, (run db.2).2)
  | .read run next, db => (next (run db.1)).kept db
  | .operation c fault next, db =>
    match c.attempt serde fault db.1 with
    | .ok store => c :: (next (.ok ())).kept (store, db.2)
    | .error e => (next (.error e)).kept db
  | .block body next, db =>
    match body.meaning serde db with
    | (.returned (.ok x), db') => body.kept db ++ (next (.ok x)).kept db'
    | (.returned (.error e), _) => (next (.error e)).kept db
    | (.panicked, _) => []

/-- An operation whose error is passed on, as `?` does. -/
def perform {A : Type} (c : StoreCall) (fault : Option ℕ) (next : Host B W A) : Host B W A :=
  .operation c fault fun result ↦
    match result with
    | .ok () => next
    | .error e => .done (.error e)

/-- A part that ends with an error or a panic, whatever the tables of the names hold. It may still
write to the host's own tables. -/
inductive GivesUp : {A : Type} → Host B W A → Prop
  | error {A : Type} (e : StoreError) : GivesUp (.done (.error e) : Host B W A)
  | panic {A : Type} : GivesUp (.panic : Host B W A)
  | own {X A : Type} {run : W → X × W} {next : X → Host B W A} :
      (∀ x, GivesUp (next x)) → GivesUp (.own run next)

/-- After an operation that failed, the enclosing block or transaction is given up. -/
def PassesErrorsOn {A : Type} : Host B W A → Prop
  | .done _ => True
  | .panic => True
  | .own _ next => ∀ x, (next x).PassesErrorsOn
  | .read _ next => ∀ x, (next x).PassesErrorsOn
  | .operation _ _ next => (next (.ok ())).PassesErrorsOn ∧ ∀ e, (next (.error e)).GivesUp
  | .block body next => body.PassesErrorsOn ∧ ∀ result, (next result).PassesErrorsOn

end Host

/-! ### What a transaction publishes -/

/-- **An operation in the database** does what it does when it is all or nothing, or it fails. -/
theorem StoreCall.eval_script (c : StoreCall) (fault : Option ℕ) (store : Store B) :
    (∀ next, c.attempt serde fault store = .ok next →
      (c.script serde fault).eval store = (.returned (.ok ()), next)) ∧
    ∀ e, c.attempt serde fault store = .error e →
      ((c.script serde fault).eval store).1 = .returned (.error e) := by
  have hrealizes := StoreScript.realizes_call serde c
  have hplain : (∀ next, store.perform serde c = .ok next →
      (StoreScript.call serde c).eval store = (.returned (.ok ()), next)) ∧
      ∀ e, store.perform serde c = .error e →
        ((StoreScript.call serde c).eval store).1 = .returned (.error e) := by
    refine ⟨fun next h ↦ hrealizes.ok ?_, fun e h ↦ hrealizes.error ?_⟩
    · rw [h]
      rfl
    · rw [h]
      rfl
  rw [attempt]
  rcases fault with - | n
  · rw [script, if_neg (by simp [faults])]
    exact hplain
  · rw [script]
    obtain ⟨hreached, hmissed⟩ :=
      (StoreScript.call serde c).eval_failingAt StoreError.sqlite n store
    by_cases hlt : n < (StoreScript.call serde c).steps store
    · rw [if_pos (by simpa [faults] using hlt)]
      refine ⟨fun next h ↦ absurd h (by simp), fun e h ↦ ?_⟩
      rw [← Except.error.inj h]
      exact hreached hlt
    · rw [if_neg (by simpa [faults] using hlt)]
      rw [hmissed hlt]
      exact hplain

variable {serde}

theorem StoreCall.perform_of_attempt {c : StoreCall} {fault : Option ℕ} {store next : Store B}
    (h : c.attempt serde fault store = .ok next) : store.perform serde c = .ok next := by
  rw [attempt] at h
  split at h
  · exact absurd h (by simp)
  · exact h

namespace Host

variable {A : Type}

/-- Rows that a failed operation has written do not matter to a part that gives up. -/
theorem GivesUp.eval_script {program : Host B W A} (h : program.GivesUp)
    (serde : Serde B HeadRecord) (written store : Store B) (own : W) :
    ((program.script serde).eval (written, own)).1 = (program.meaning serde (store, own)).1 ∧
      ∀ a, (program.meaning serde (store, own)).1 ≠ .returned (.ok a) := by
  induction h generalizing own with
  | error e => exact ⟨rfl, fun a h ↦ absurd h (by simp [meaning])⟩
  | panic => exact ⟨rfl, fun a h ↦ absurd h (by simp [meaning])⟩
  | @own X A run next _ ih => exact ih (run own).1 (run own).2

/-- **The machine's program ends as the program means**, with the same tables when it returns a
value. -/
theorem eval_script (serde : Serde B HeadRecord) {program : Host B W A}
    (hpasses : program.PassesErrorsOn) (db : Store B × W) :
    ((program.script serde).eval db).1 = (program.meaning serde db).1 ∧
      ∀ a, (program.meaning serde db).1 = .returned (.ok a) →
        ((program.script serde).eval db).2 = (program.meaning serde db).2 := by
  induction program generalizing db with
  | done result => exact ⟨rfl, fun _ _ ↦ rfl⟩
  | panic => exact ⟨rfl, fun _ _ ↦ rfl⟩
  | own run next ih => exact ih (run db.2).1 (hpasses _) (db.1, (run db.2).2)
  | read run next ih => exact ih (run db.1) (hpasses _) db
  | operation c fault next ih =>
    obtain ⟨hok, herror⟩ := c.eval_script serde fault db.1
    rw [script, Script.eval_handle, Script.eval_onFst, meaning]
    rcases hattempt : c.attempt serde fault db.1 with e | store
    · -- the rows written so far stand while the enclosing part is given up
      rw [herror e hattempt]
      obtain ⟨houtcome, hnever⟩ := (hpasses.2 e).eval_script serde
        ((c.script serde fault).eval db.1).2 db.1 db.2
      exact ⟨houtcome, fun a h ↦ absurd h (hnever a)⟩
    · rw [hok store hattempt]
      exact ih (.ok ()) hpasses.1 (store, db.2)
  | block body next ihBody ihNext =>
    obtain ⟨houtcome, htables⟩ := ihBody hpasses.1 db
    rw [script, Script.eval, meaning]
    rcases hmeaning : body.meaning serde db with ⟨result | -, db'⟩
    · rcases heval : (body.script serde).eval db with ⟨outcome, s'⟩
      rw [hmeaning, heval] at houtcome htables
      rw [show outcome = _ from houtcome]
      rcases result with e | x
      · exact ihNext (.error e) (hpasses.2 _) db
      · rw [show s' = db' from htables x rfl]
        exact ihNext (.ok x) (hpasses.2 _) db'
    · rcases heval : (body.script serde).eval db with ⟨outcome, s'⟩
      rw [hmeaning, heval] at houtcome
      rw [show outcome = _ from houtcome]
      exact ⟨rfl, fun a h ↦ absurd h (by simp)⟩

/-- **The tables are those of the kept calls**, one after the other. -/
theorem foldlM_kept (program : Host B W A) {db next : Store B × W} {a : A}
    (h : program.meaning serde db = (.returned (.ok a), next)) :
    (program.kept serde db).foldlM (Store.perform serde) db.1 = .ok next.1 := by
  induction program generalizing db next with
  | done result =>
    rw [meaning, Prod.mk.injEq] at h
    rw [← h.2]
    rfl
  | panic => exact absurd h (by simp [meaning])
  | own run rest ih => exact ih (run db.2).1 h
  | read run rest ih => exact ih (run db.1) h
  | operation c fault rest ih =>
    rw [meaning] at h
    rw [kept]
    rcases hattempt : c.attempt serde fault db.1 with e | store
    · rw [hattempt] at h
      exact ih (.error e) h
    · rw [hattempt] at h
      dsimp only at h ⊢
      rw [List.foldlM_cons, StoreCall.perform_of_attempt hattempt]
      exact ih (.ok ()) h
  | block body rest ihBody ihNext =>
    rw [meaning] at h
    rw [kept]
    rcases hbody : body.meaning serde db with ⟨result | -, db'⟩
    · rw [hbody] at h
      rcases result with e | x
      · exact ihNext (.error e) h
      · dsimp only
        rw [List.foldlM_append, ihBody hbody]
        exact ihNext (.ok x) h
    · rw [hbody] at h
      exact absurd h (by simp)

end Host

/-- The transaction publishes what the program means, or nothing. -/
theorem Host.withTransaction_eq {A : Type} {program : Host B W A} (hpasses : program.PassesErrorsOn)
    (db : Store B × W) :
    (program.script serde).withTransaction blockSavepoint .sqlite db =
      match program.meaning serde db with
      | (.returned (.ok a), next) => (.returned (.ok a), next)
      | (outcome, _) => (outcome, db) := by
  obtain ⟨houtcome, htables⟩ := Host.eval_script serde hpasses db
  rw [Script.withTransaction_eq]
  rcases heval : (program.script serde).eval db with ⟨outcome, s'⟩
  rcases hmeaning : program.meaning serde db with ⟨outcome', next⟩
  rw [heval, hmeaning] at houtcome htables
  rw [show outcome = outcome' from houtcome]
  rcases outcome' with result | -
  · rcases result with e | a
    · rfl
    · rw [show s' = next from htables a rfl]
  · rfl

/-- One block of a batch: the call, the statement of it that fails, if one does, and what the host
writes beside it. -/
structure BatchEntry (W : Type) where
  call : StoreCall
  fault : Option ℕ
  own : W → W

/-- One entry of a batch, all or nothing. -/
def BatchEntry.attempt (serde : Serde B HeadRecord) (db : Store B × W) (entry : BatchEntry W) :
    Except StoreError (Store B × W) :=
  (entry.call.attempt serde entry.fault db.1).map fun store ↦ (store, entry.own db.2)

end Transactions

/-! ### Hosts that recover and hosts that go on -/

namespace Sample

/-- A delta that removes a COMMIT that the tables do not have. `apply_delta` refuses it after it has
inserted a row into `rollback_blocks`. -/
def refusedDelta : StateDelta where
  fromTip := none
  toTip := some ⟨0, Vector.replicate 32 1⟩
  heads := []
  commits := [⟨⟨0, 0, Vector.replicate 32 1⟩, some commitment, none⟩]

/-- What a transaction on a new store returns and leaves. -/
def published (program : Host HeadRecord Unit Unit) :
    Script.Outcome StoreError Unit × Store HeadRecord × Unit :=
  (program.script recordSerde).withTransaction blockSavepoint .sqlite (Store.new storeIdentity, ())

/-- A host that goes on in the transaction after the delta was refused. -/
def keepsGoing : Host HeadRecord Unit Unit :=
  .operation (.applyDelta refusedDelta) none fun _ ↦ .done (.ok ())

/-- **A host that goes on publishes part of an operation**: the row of `rollback_blocks`, for a
block that is not in the tables. -/
theorem kept_going_publishes_part :
    (published keepsGoing).1 = .returned (.ok ()) ∧ (published keepsGoing).2.1.tipHeight = none ∧
    (published keepsGoing).2.1.rollbackBlocks.toList.map Prod.fst = [0] ∧
    (keepsGoing.meaning recordSerde (Store.new storeIdentity, ())).2.1.rollbackBlocks.toList.map
      Prod.fst = [] :=
  ⟨by decide +kernel, by decide +kernel, by decide +kernel, by decide +kernel⟩

end Sample

end CoppiceNames
