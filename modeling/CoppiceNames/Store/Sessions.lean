import CoppiceNames.Store.Observations
import CoppiceNames.Store.Transactions

/-!
# The life of a database

A database outlives the processes that use it. The first `initialize_wallet_connection` inserts the
metadata row; every later one compares the row with the identity that it is asked for, and so does
every `WalletNamesTransaction::new`. Any number of stores and wallet transactions take turns on one
file, a transaction at a time.

Whatever identities they ask for, the file keeps the first one, and its tables are those of a replay
under that identity (`database_keeps_identity`). A wallet transaction may ask for less retention
than the file has. It is then given a store with another identity, which does not matter to a
replay: deltas read the network and the coverage only (`Store.Follows.of_retention`).

A store's transaction is a host program that passes the error of an operation on, as in
`transaction_publishes`. The wallet calls `apply_delta` in a transaction of its own, which it rolls
back when the call fails; the adapter itself leaves that to the wallet.

A connection that races another for the first row fails with an SQL error; here the first row is
inserted at once. The columns of the metadata row have the types they are written with.
-/

open Std hiding not_le not_lt

namespace CoppiceNames

/-! ### The metadata row -/

/-- `StoreIdentity`, with the columns that no operation reads. -/
structure FileIdentity extends StoreIdentity where
  deploymentId : Bytes32
  rulesetFingerprint : Bytes32

/-- `StoreError`, as far as the identity checks return it. -/
inductive OpenError
  | sqlite
  | unsupportedSchema (actual : U32)
  | identityMismatch
  | coverageMismatch
  | insufficientRollbackRetention
  | invalidStoredRecord
  deriving DecidableEq, Repr

/-- The columns of the metadata row that identify the file. -/
structure MetadataRow where
  schemaVersion : U32
  deploymentId : List UInt8
  rulesetFingerprint : List UInt8
  network : UInt8
  coverageKind : UInt8
  coverageNameId : Option (List UInt8)
  minimumRollbackBlocks : U32
  deriving DecidableEq

/-- `SCHEMA_VERSION`. -/
def schemaVersion : U32 := 1

/-- `decode_32`. -/
def decode32 (bytes : List UInt8) : Except OpenError Bytes32 :=
  if h : bytes.length = 32 then .ok ⟨bytes.toArray, by simpa using h⟩
  else .error .invalidStoredRecord

/-- `encode_network`. -/
def encodeNetwork : Network → UInt8
  | .main => 0
  | .test => 1
  | .regtest => 2

section Sessions

variable [Primitives]

/-- `encode_coverage`. -/
def encodeCoverage : Coverage → UInt8 × Option (List UInt8)
  | .complete => (0, none)
  | .exact nameId => (1, some nameId.bytes.toList)
  | .owned => (2, none)

/-- The row that is inserted. -/
def MetadataRow.of (identity : FileIdentity) : MetadataRow where
  schemaVersion := CoppiceNames.schemaVersion
  deploymentId := identity.deploymentId.toList
  rulesetFingerprint := identity.rulesetFingerprint.toList
  network := encodeNetwork identity.network
  coverageKind := (encodeCoverage identity.coverage).1
  coverageNameId := (encodeCoverage identity.coverage).2
  minimumRollbackBlocks := identity.minimumRollbackBlocks

/-- Return the error unless the condition holds. -/
def OpenError.ensure (condition : Prop) [Decidable condition] (error : OpenError) :
    Except OpenError Unit :=
  if condition then .ok () else .error error

/-- The checks of both adapters, in their order. -/
def MetadataRow.check (existing : MetadataRow) (identity : FileIdentity) :
    Except OpenError Unit := do
  OpenError.ensure (existing.schemaVersion = CoppiceNames.schemaVersion)
    (.unsupportedSchema existing.schemaVersion)
  let deployment ← decode32 existing.deploymentId
  OpenError.ensure (deployment = identity.deploymentId) .identityMismatch
  let ruleset ← decode32 existing.rulesetFingerprint
  OpenError.ensure (ruleset = identity.rulesetFingerprint) .identityMismatch
  OpenError.ensure (existing.network = encodeNetwork identity.network) .identityMismatch
  OpenError.ensure (existing.coverageKind = (encodeCoverage identity.coverage).1 ∧
    existing.coverageNameId = (encodeCoverage identity.coverage).2) .coverageMismatch

/-- What is beside the tables of the names: `core_snapshot` and `wallet_commits`. -/
abbrev Aside := Option (List UInt8) × OrderedMap Bytes32 CommitRef

/-- The database file. -/
structure NamesFile (B : Type) where
  metadata : Option MetadataRow
  tipHeight : Option U32
  tipHash : Option Bytes32
  finalizedHeight : Option U32
  heads : OrderedMap NameId HeadRecord
  pendingCommits : OrderedMap CommitRef Bytes32
  rollbackBlocks : OrderedMap U32 RollbackBlock
  rollbackHeads : ChildTable U32 NameId (Option B)
  rollbackCommits : ChildTable U32 CommitRef (Option Bytes32)
  aside : Aside

namespace NamesFile

variable {B : Type} (file : NamesFile B)

/-- The tables as a connection with an identity sees them. -/
def tables (identity : StoreIdentity) : Store B where
  identity := identity
  tipHeight := file.tipHeight
  tipHash := file.tipHash
  finalizedHeight := file.finalizedHeight
  heads := file.heads
  pendingCommits := file.pendingCommits
  rollbackBlocks := file.rollbackBlocks
  rollbackHeads := file.rollbackHeads
  rollbackCommits := file.rollbackCommits

/-- The same, with what is beside them. -/
def wallet (identity : StoreIdentity) : WalletStore B :=
  { file.tables identity with
    coreSnapshot := file.aside.1
    walletCommits := file.aside.2 }

/-- The file with other tables. -/
def publish (tables : Store B) (aside : Aside) : NamesFile B where
  metadata := file.metadata
  tipHeight := tables.tipHeight
  tipHash := tables.tipHash
  finalizedHeight := tables.finalizedHeight
  heads := tables.heads
  pendingCommits := tables.pendingCommits
  rollbackBlocks := tables.rollbackBlocks
  rollbackHeads := tables.rollbackHeads
  rollbackCommits := tables.rollbackCommits
  aside := aside

omit [Primitives] in
/-- A file that nothing was written to. -/
def blank : NamesFile B where
  metadata := none
  tipHeight := none
  tipHash := none
  finalizedHeight := none
  heads := ∅
  pendingCommits := ∅
  rollbackBlocks := ∅
  rollbackHeads := ∅
  rollbackCommits := ∅
  aside := (none, ∅)

/-- `initialize_or_validate_metadata`. -/
def initializeOrValidateMetadata (identity : FileIdentity) : Except OpenError (NamesFile B) :=
  match file.metadata with
  | some existing => do
    existing.check identity
    OpenError.ensure (existing.minimumRollbackBlocks = identity.minimumRollbackBlocks)
      .identityMismatch
    return file
  | none => .ok { file with metadata := some (.of identity) }

/-- `WalletNamesTransaction::new`. -/
def attach (identity : FileIdentity) : Except OpenError Unit :=
  match file.metadata with
  | some existing => do
    existing.check identity
    OpenError.ensure (identity.minimumRollbackBlocks ≤ existing.minimumRollbackBlocks)
      .insufficientRollbackRetention
  | none => .error .sqlite

end NamesFile

/-! ### Taking turns -/

section Turns

variable {B : Type} (serde : Serde B HeadRecord)

/-- A call in a transaction of a wallet that rolls the transaction back when an `apply_delta` fails.
After another failure the wallet may go on. -/
def WalletStore.commits (store : WalletStore B) : WalletCall → Option (WalletStore B)
  | .applyDelta delta => (store.applyDelta serde delta).toOption
  | c => some (store.call serde c).2

/-- What happens to a file. -/
inductive DatabaseEvent (B : Type) : Type 1
  /-- `SqliteNamesStore::open`. -/
  | connect (identity : FileIdentity)
  /-- `with_transaction` of an open store. -/
  | transaction (connection : ℕ) {A : Type} (program : Host B Aside A)
  /-- A transaction of a wallet, with its calls until the commit. It is rolled back when an
  `apply_delta` fails. -/
  | wallet (identity : FileIdentity) (calls : List WalletCall)

/-- A file, and the identities that its open stores were given. -/
structure Database (B : Type) where
  file : NamesFile B
  connections : List FileIdentity

namespace Database

variable (database : Database B)

omit [Primitives] in
/-- A new file. -/
def new : Database B := ⟨.blank, []⟩

/-- What a host program returns and leaves. -/
def execute {A : Type} (identity : FileIdentity) (program : Host B Aside A) :
    Script.Outcome StoreError A × Store B × Aside :=
  (program.script serde).withTransaction blockSavepoint .sqlite
    (database.file.tables identity.toStoreIdentity, database.file.aside)

/-- What the calls of a wallet transaction leave, if it is committed. -/
def host (identity : FileIdentity) (calls : List WalletCall) : Option (WalletStore B) :=
  calls.foldlM (WalletStore.commits serde) (database.file.wallet identity.toStoreIdentity)

/-- The database after an event. -/
def step : DatabaseEvent B → Database B
  | .connect identity =>
    match database.file.initializeOrValidateMetadata identity with
    | .ok file => ⟨file, database.connections ++ [identity]⟩
    | .error _ => database
  | .transaction connection program =>
    match database.connections[connection]? with
    | some identity =>
      let result := database.execute serde identity program
      { database with file := database.file.publish result.2.1 result.2.2 }
    | none => database
  | .wallet identity calls =>
    match database.file.attach identity, database.host serde identity calls with
    | .ok (), some store =>
      { database with
        file := database.file.publish store.toStore (store.coreSnapshot, store.walletCommits) }
    | _, _ => database

end Database

/-! ### What survives -/

omit [Primitives] in
/-- The deltas whose blocks stand after a call of a store. -/
def StoreCall.surviving (live : List StateDelta) : StoreCall → List StateDelta
  | .applyDelta delta => live ++ [delta]
  | .rollbackTip _ => live.dropLast
  | .finalizeThrough _ => live

/-- The deltas whose blocks stand after a call of a wallet. A rewind that fails stops at a block
without a journal. -/
def WalletCall.surviving (store : WalletStore B) (live : List StateDelta) :
    WalletCall → List StateDelta
  | .putCoreSnapshot _ => live
  | .resetForReplay => []
  | .applyDelta delta => live ++ [delta]
  | .recordWalletCommit _ _ => live
  | .rollbackToHeight height =>
    match store.rollbackToHeight serde height with
    | (.ok _, _) => live.filter (StateDelta.upTo height)
    | (.error _, next) =>
      match next.tip with
      | .ok (some tip) => live.filter (StateDelta.upTo tip.height)
      | _ => []
  | .rollbackToHeightOrReset height =>
    match (store.rollbackToHeightOrReset serde height).1 with
    | .ok (some _) => live.filter (StateDelta.upTo height)
    | _ => []

/-- The same, after the calls of a transaction. -/
def WalletStore.surviving (store : WalletStore B) (live : List StateDelta) :
    List WalletCall → List StateDelta
  | [] => live
  | c :: rest => surviving (store.call serde c).2 (c.surviving serde store live) rest

/-- The same, after an event. -/
def Database.surviving (database : Database B) (live : List StateDelta) :
    DatabaseEvent B → List StateDelta
  | .connect _ => live
  | .transaction connection program =>
    match database.connections[connection]? with
    | some identity =>
      match (database.execute serde identity program).1 with
      | .returned (.ok _) =>
        (program.kept serde (database.file.tables identity.toStoreIdentity,
          database.file.aside)).foldl StoreCall.surviving live
      | _ => live
    | none => live
  | .wallet identity calls =>
    match database.file.attach identity, database.host serde identity calls with
    | .ok (), some _ =>
      (database.file.wallet identity.toStoreIdentity).surviving serde live calls
    | _, _ => live

/-- A file after events, and the deltas that survived them. -/
def Database.run (events : List (DatabaseEvent B)) : Database B × List StateDelta :=
  events.foldl (fun state event ↦ (state.1.step serde event, state.1.surviving serde state.2 event))
    (.new, [])

omit [Primitives] in
/-- The identity that a store is opened with. -/
def DatabaseEvent.identity : DatabaseEvent B → Option FileIdentity
  | .connect identity => some identity
  | _ => none

omit [Primitives] in
/-- After an operation that failed, a transaction gives up the enclosing block or itself. -/
def DatabaseEvent.PassesErrorsOn : DatabaseEvent B → Prop
  | .transaction _ program => program.PassesErrorsOn
  | _ => True

end Turns

/-! ### Replays -/

namespace Store

variable {B : Type} {serde : Serde B HeadRecord} {identity : StoreIdentity}
  {live : List StateDelta} {store next : Store B}

/-- The tables are those of a replay, with a part of its journal. -/
def Replays (serde : Serde B HeadRecord) (identity : StoreIdentity) (live : List StateDelta)
    (store : Store B) : Prop :=
  ∃ full, replay serde identity live = .ok full ∧ PrunedFrom full store

/-- A call of a store. -/
theorem Replays.perform (h : Replays serde identity live store) (hserde : serde.RoundTrips)
    {c : StoreCall} (hperform : store.perform serde c = .ok next) :
    Replays serde identity (c.surviving live) next := by
  obtain ⟨full, hfull, hpruned⟩ := h
  have hreplayed := replayed hserde hfull
  rw [Store.perform, Store.call.eq_def] at hperform
  rcases c with delta | expectedHash | height
  · dsimp only at hperform
    rcases happly : store.applyDelta serde delta with e | applied
    · rw [happly] at hperform
      exact absurd hperform (by simp)
    rw [happly] at hperform
    obtain rfl := Except.ok.inj hperform
    obtain ⟨full', hfull', hpruned'⟩ := hpruned.applyDelta hserde hreplayed happly
    exact ⟨full', replay_concat_eq_ok_iff.2 ⟨full, hfull, hfull'⟩, hpruned'⟩
  · dsimp only at hperform
    rcases hrollback : store.rollbackTip serde expectedHash with e | ⟨previous, restored⟩
    · rw [hrollback] at hperform
      exact absurd hperform (by simp)
    rw [hrollback] at hperform
    obtain rfl := Except.ok.inj hperform
    obtain ⟨tip, row, -, hread, hhash, hrow, -⟩ := rollbackTip_eq_ok_iff.1 hrollback
    rcases List.eq_nil_or_concat live with rfl | ⟨before, delta, rfl⟩
    · -- without a block there is no tip
      have hnone := hpruned.readTip.trans hreplayed.tip
      exact absurd (hread.symm.trans hnone) (by simp)
    rw [List.concat_eq_append] at hfull ⊢
    obtain ⟨below, hbelow, happly⟩ := replay_concat_eq_ok_iff.1 hfull
    have htip : delta.toTip = some tip := by
      have hlast := (replayed hserde hfull).tip
      rw [List.getLast?_concat, Option.bind_some, ← hpruned.readTip, hread] at hlast
      exact (Except.ok.inj hlast).symm
    obtain ⟨undone, hundone, hpruned', -⟩ := hpruned.rollbackTip hserde (replayed hserde hbelow)
      happly htip (OrderedMap.mem_of_getElem?_eq_some hrow)
    rw [hhash, hrollback, Except.ok.injEq, Prod.mk.injEq] at hundone
    rw [StoreCall.surviving, List.dropLast_concat, hundone.2]
    exact ⟨below, hbelow, hpruned'⟩
  · dsimp only at hperform
    rcases hfinalize : store.finalizeThrough height with e | finalized
    · rw [hfinalize] at hperform
      exact absurd hperform (by simp)
    rw [hfinalize] at hperform
    obtain rfl := Except.ok.inj hperform
    obtain ⟨tip, -, -, -, rfl⟩ := finalizeThrough_eq_ok_iff.1 hfinalize
    have hkept := hpruned.keepRollbackBlocks fun row ↦ height < row
    exact ⟨full, hfull, hkept.identity, hkept.tipHeight, hkept.tipHash, hkept.heads,
      hkept.pendingCommits, hkept.blocks, hkept.headRows, hkept.commitRows⟩

/-- The calls of a transaction. -/
theorem Replays.performAll (h : Replays serde identity live store) (hserde : serde.RoundTrips)
    {calls : List StoreCall} (hcalls : calls.foldlM (Store.perform serde) store = .ok next) :
    Replays serde identity (calls.foldl StoreCall.surviving live) next := by
  induction calls generalizing store live with
  | nil =>
    rw [← Except.ok.inj hcalls]
    exact h
  | cons c calls ih =>
    rw [List.foldlM_cons, Except.bind_eq_ok_iff] at hcalls
    obtain ⟨first, hfirst, hrest⟩ := hcalls
    exact ih (h.perform hserde hfirst) hrest

/-! ### Another retention -/

/-- The store of a connection with another identity. -/
def withIdentity (store : Store B) (identity : StoreIdentity) : Store B :=
  { store with identity := identity }

/-- The same network and coverage. -/
def SameRules (identity identity' : StoreIdentity) : Prop :=
  identity'.network = identity.network ∧ identity'.coverage = identity.coverage

theorem applyDelta_withIdentity (hserde : serde.RoundTrips) {identity' : StoreIdentity}
    (hsame : SameRules store.identity identity') {delta : StateDelta}
    (h : store.applyDelta serde delta = .ok next) :
    (store.withIdentity identity').applyDelta serde delta = .ok (next.withIdentity identity') := by
  obtain ⟨htip, toTip, hadmissible, hnew, hwritten⟩ :=
    (applyDelta_eq_ok_iff_written hserde).1 h
  refine (applyDelta_eq_ok_iff_written hserde).2 ⟨htip, toTip, ?_, hnew,
    hwritten.heads, hwritten.commits, ?_⟩
  · obtain ⟨htoTip, hsequential, hcovered, hvalid⟩ := hadmissible
    refine ⟨htoTip, hsequential, ?_, ?_⟩
    · rw [show (store.withIdentity identity').identity = identity' from rfl, hsame.2]
      exact hcovered
    · rw [show (store.withIdentity identity').identity = identity' from rfl, hsame.1]
      exact hvalid
  · rw [withIdentity, hwritten.frame]
    rfl

/-- **A replay under another retention** leaves the same tables. -/
theorem replay_withIdentity (hserde : serde.RoundTrips) {identity' : StoreIdentity}
    (hsame : SameRules identity identity') (h : replay serde identity live = .ok store) :
    replay serde identity' live = .ok (store.withIdentity identity') := by
  induction live using List.reverseRecOn generalizing store with
  | nil =>
    rw [← Except.ok.inj h]
    rfl
  | append_singleton live delta ih =>
    obtain ⟨full, hfull, happly⟩ := replay_concat_eq_ok_iff.1 h
    rw [← (replayed hserde hfull).identity_eq] at hsame
    exact replay_concat_eq_ok_iff.2 ⟨_, ih hfull, applyDelta_withIdentity hserde hsame happly⟩

theorem Replays.withIdentity (h : Replays serde identity live store) (hserde : serde.RoundTrips)
    {identity' : StoreIdentity} (hsame : SameRules identity identity') :
    Replays serde identity' live (store.withIdentity identity') := by
  obtain ⟨full, hfull, hpruned⟩ := h
  exact ⟨_, replay_withIdentity hserde hsame hfull, rfl, hpruned.tipHeight, hpruned.tipHash,
    hpruned.heads, hpruned.pendingCommits, hpruned.blocks, hpruned.headRows, hpruned.commitRows⟩

/-! ### The heads of a replay -/

end Store

/-! ### Transactions of the wallet -/

namespace WalletStore

variable {B : Type} {serde : Serde B HeadRecord} {identity : StoreIdentity}
  {live : List StateDelta} {store next : WalletStore B}

omit [Primitives] in
theorem recordWalletCommit_toStore {commitment : Bytes32} {reference : CommitRef}
    (h : store.recordWalletCommit commitment reference = .ok next) :
    next.toStore = store.toStore := by
  rw [recordWalletCommit] at h
  split at h
  · split at h
    · exact absurd h (by simp)
    · rw [← Except.ok.inj h]
  · rw [← Except.ok.inj h]

/-- A rewind by the journal, also one that fails. -/
theorem Tracks.rollbackToHeight (h : Tracks serde identity live store) (hserde : serde.RoundTrips)
    (height : U32) : Tracks serde identity
      ((WalletCall.rollbackToHeight height).surviving serde store live)
      (store.rollbackToHeight serde height).2 := by
  rw [WalletCall.surviving]
  rcases rollbackToHeight_spec hserde h height with
    ⟨tip, next, hrewind, -, htracks, -⟩ | ⟨next, hrewind, -, tip, htip, htracks⟩
  · rw [hrewind]
    exact htracks
  · rw [hrewind]
    dsimp only
    rw [htip]
    exact htracks

theorem Tracks.rollbackToHeightOrReset (h : Tracks serde identity live store)
    (hserde : serde.RoundTrips) (height : U32) : Tracks serde identity
      ((WalletCall.rollbackToHeightOrReset height).surviving serde store live)
      (store.rollbackToHeightOrReset serde height).2 := by
  rw [WalletCall.surviving]
  obtain ⟨tip, next, hrewind, htip, hclean⟩ := rollbackToHeightOrReset_spec hserde h height
  rw [hrewind]
  rcases tip with - | tip
  · rcases hclean with ⟨-, htracks, -⟩ | ⟨-, htracks, -⟩
    · have hnone := htracks
      rw [htracks.eq_nil hserde htip] at hnone
      exact hnone
    · exact htracks
  · rcases hclean with ⟨-, htracks, -⟩ | ⟨-, -, hblank⟩
    · exact htracks
    · exact absurd (htip.symm.trans hblank.tip) (by simp)

/-- **A call in a transaction of the wallet.** -/
theorem Tracks.commits (h : Tracks serde identity live store) (hserde : serde.RoundTrips)
    {c : WalletCall} (hcommits : store.commits serde c = some next) :
    next = (store.call serde c).2 ∧
      Tracks serde identity (c.surviving serde store live) next := by
  cases c with
  | putCoreSnapshot snapshot =>
    obtain rfl : store.putCoreSnapshot snapshot = next := Option.some.inj hcommits
    exact ⟨rfl, h⟩
  | resetForReplay =>
    obtain rfl : store.resetForReplay = next := Option.some.inj hcommits
    have hblank : store.resetForReplay.Blank := ⟨rfl, rfl, rfl, rfl, rfl, rfl, rfl, rfl⟩
    have hidentity : store.identity = identity := h.identity_eq hserde
    exact ⟨rfl, hblank.tracks hidentity⟩
  | applyDelta delta =>
    have happly := Except.toOption_eq_some_iff.1 hcommits
    refine ⟨?_, ?_⟩
    · rw [call.eq_def]
      dsimp only
      rw [happly]
    · rw [applyDelta_eq] at happly
      obtain ⟨tables, htables, rfl⟩ := Except.map_eq_ok_iff.1 happly
      have hperform : store.toStore.perform serde (.applyDelta delta) = .ok tables := by
        rw [Store.perform, Store.call, htables]
      exact Store.Replays.perform h hserde hperform
  | recordWalletCommit commitment reference =>
    obtain rfl : (store.call serde (.recordWalletCommit commitment reference)).2 = next :=
      Option.some.inj hcommits
    refine ⟨rfl, ?_⟩
    rw [call.eq_def]
    dsimp only
    rcases hrecord : store.recordWalletCommit commitment reference with e | recorded
    · exact h
    · dsimp only
      rw [Tracks, recordWalletCommit_toStore hrecord]
      exact h
  | rollbackToHeight height =>
    obtain rfl : (store.rollbackToHeight serde height).2 = next := Option.some.inj hcommits
    exact ⟨rfl, h.rollbackToHeight hserde height⟩
  | rollbackToHeightOrReset height =>
    obtain rfl : (store.rollbackToHeightOrReset serde height).2 = next := Option.some.inj hcommits
    exact ⟨rfl, h.rollbackToHeightOrReset hserde height⟩

/-- The calls of a transaction. -/
theorem Tracks.host (h : Tracks serde identity live store) (hserde : serde.RoundTrips)
    {calls : List WalletCall}
    (hcalls : calls.foldlM (WalletStore.commits serde) store = some next) :
    Tracks serde identity (store.surviving serde live calls) next := by
  induction calls generalizing store live with
  | nil =>
    rw [← Option.some.inj hcalls]
    exact h
  | cons c calls ih =>
    rw [List.foldlM_cons, Option.bind_eq_bind, Option.bind_eq_some_iff] at hcalls
    obtain ⟨first, hfirst, hrest⟩ := hcalls
    obtain ⟨rfl, htracks⟩ := h.commits hserde hfirst
    exact ih htracks hrest

end WalletStore

/-! ### Identities -/

omit [Primitives] in
theorem decode32_toList (bytes : Bytes32) : decode32 bytes.toList = .ok bytes := by
  rw [decode32, dif_pos (by simp)]
  exact congrArg _ (Vector.toArray_inj.1 rfl)

omit [Primitives] in
theorem encodeNetwork_inj {network network' : Network} :
    encodeNetwork network = encodeNetwork network' ↔ network = network' := by
  cases network <;> cases network' <;> decide

omit [Primitives] in
theorem encodeCoverage_inj {coverage coverage' : Coverage} :
    encodeCoverage coverage = encodeCoverage coverage' ↔ coverage = coverage' := by
  refine ⟨fun h ↦ ?_, congrArg encodeCoverage⟩
  rcases coverage with - | nameId | -
  · rcases coverage' with - | nameId' | -
    · rfl
    · exact absurd (congrArg Prod.fst h) (by simp [encodeCoverage])
    · exact absurd (congrArg Prod.fst h) (by simp [encodeCoverage])
  · rcases coverage' with - | nameId' | -
    · exact absurd (congrArg Prod.fst h) (by simp [encodeCoverage])
    · have hbytes : nameId.bytes.toList = nameId'.bytes.toList := by
        simpa [encodeCoverage] using congrArg Prod.snd h
      rcases nameId with ⟨bytes, hcanonical⟩
      rcases nameId' with ⟨bytes', hcanonical'⟩
      obtain rfl := Vector.toList_inj.1 hbytes
      rfl
    · exact absurd (congrArg Prod.fst h) (by simp [encodeCoverage])
  · rcases coverage' with - | nameId' | -
    · exact absurd (congrArg Prod.fst h) (by simp [encodeCoverage])
    · exact absurd (congrArg Prod.fst h) (by simp [encodeCoverage])
    · rfl

omit [Primitives] in
theorem OpenError.ensure_eq_ok_iff {condition : Prop} [Decidable condition] {error : OpenError}
    {u : Unit} : OpenError.ensure condition error = .ok u ↔ condition := by
  rw [OpenError.ensure]
  split
  · rename_i hcondition
    exact ⟨fun _ ↦ hcondition, fun _ ↦ rfl⟩
  · rename_i hcondition
    exact ⟨fun h ↦ absurd h (by simp), fun h ↦ absurd h hcondition⟩

omit [Primitives] in
/-- The checks of both adapters pass for one deployment, ruleset, network and coverage. -/
theorem MetadataRow.check_of_eq_ok_iff {identity other : FileIdentity} {u : Unit} :
    (MetadataRow.of identity).check other = .ok u ↔
      other.deploymentId = identity.deploymentId ∧
      other.rulesetFingerprint = identity.rulesetFingerprint ∧
      other.network = identity.network ∧ other.coverage = identity.coverage := by
  simp only [MetadataRow.check, MetadataRow.of, decode32_toList, Except.bind_eq_ok_iff,
    OpenError.ensure_eq_ok_iff, ← Prod.ext_iff, encodeCoverage_inj, encodeNetwork_inj,
    Except.ok.injEq]
  constructor
  · rintro ⟨-, -, _, rfl, -, hdeployment, _, rfl, -, hruleset, -, hnetwork, hcoverage⟩
    exact ⟨hdeployment.symm, hruleset.symm, hnetwork.symm, hcoverage.symm⟩
  · rintro ⟨hdeployment, hruleset, hnetwork, hcoverage⟩
    exact ⟨(), trivial, _, rfl, (), hdeployment.symm, _, rfl, (), hruleset.symm, (),
      hnetwork.symm, hcoverage.symm⟩

namespace NamesFile

variable {B : Type} {file next : NamesFile B} {identity other : FileIdentity}

omit [Primitives] in
/-- A store is opened under the identity of the file only, and writes nothing then. -/
theorem initialize_eq_ok_iff (h : file.metadata = some (.of identity)) :
    file.initializeOrValidateMetadata other = .ok next ↔ other = identity ∧ next = file := by
  rw [initializeOrValidateMetadata, h]
  simp only [Except.bind_eq_ok_iff, MetadataRow.check_of_eq_ok_iff, OpenError.ensure_eq_ok_iff]
  constructor
  · rintro ⟨-, ⟨hdeployment, hruleset, hnetwork, hcoverage⟩, -, hretention, hnext⟩
    refine ⟨?_, (Except.ok.inj hnext).symm⟩
    rcases other with ⟨⟨network, coverage, retention⟩, deploymentId, ruleset⟩
    rcases identity with ⟨⟨network', coverage', retention'⟩, deploymentId', ruleset'⟩
    dsimp only at hdeployment hruleset hnetwork hcoverage
    rw [hdeployment, hruleset, hnetwork, hcoverage,
      show retention = retention' from hretention.symm]
  · rintro ⟨rfl, rfl⟩
    exact ⟨(), ⟨rfl, rfl, rfl, rfl⟩, (), rfl, rfl⟩

/-- What a wallet transaction may ask for. -/
structure Serves (identity other : FileIdentity) : Prop where
  deploymentId : other.deploymentId = identity.deploymentId
  rulesetFingerprint : other.rulesetFingerprint = identity.rulesetFingerprint
  network : other.network = identity.network
  coverage : other.coverage = identity.coverage
  retention : other.minimumRollbackBlocks ≤ identity.minimumRollbackBlocks

omit [Primitives] in
theorem attach_eq_ok_iff (h : file.metadata = some (.of identity)) :
    file.attach other = .ok () ↔ Serves identity other := by
  rw [attach, h]
  simp only [Except.bind_eq_ok_iff, MetadataRow.check_of_eq_ok_iff, OpenError.ensure_eq_ok_iff]
  constructor
  · rintro ⟨-, ⟨hdeployment, hruleset, hnetwork, hcoverage⟩, hretention⟩
    exact ⟨hdeployment, hruleset, hnetwork, hcoverage, hretention⟩
  · rintro ⟨hdeployment, hruleset, hnetwork, hcoverage, hretention⟩
    exact ⟨(), ⟨hdeployment, hruleset, hnetwork, hcoverage⟩, hretention⟩

end NamesFile

/-! ### The life of a file -/

namespace Database

variable {B : Type} {serde : Serde B HeadRecord} {identity : FileIdentity} {live : List StateDelta}
  {database : Database B}

/-- A file under an identity: every open store has it, and the tables are those of a replay under
it. -/
structure Owned (serde : Serde B HeadRecord) (identity : FileIdentity) (live : List StateDelta)
    (database : Database B) : Prop where
  metadata : database.file.metadata = some (.of identity)
  connections : ∀ other ∈ database.connections, other = identity
  tables : Store.Replays serde identity.toStoreIdentity live
    (database.file.tables identity.toStoreIdentity)

/-- A transaction of a store. -/
theorem Owned.transaction (h : Owned serde identity live database) (hserde : serde.RoundTrips)
    (connection : ℕ) {A : Type} {program : Host B Aside A} (hpasses : program.PassesErrorsOn) :
    Owned serde identity (database.surviving serde live (.transaction connection program))
      (database.step serde (.transaction connection program)) := by
  rw [surviving, step]
  rcases hconnection : database.connections[connection]? with - | other
  · exact h
  obtain rfl := h.connections other (List.mem_of_getElem? hconnection)
  dsimp only
  rw [execute, Host.withTransaction_eq hpasses]
  rcases hmeaning : program.meaning serde (database.file.tables other.toStoreIdentity,
    database.file.aside) with ⟨result | -, next⟩
  · rcases result with e | a
    · exact ⟨h.metadata, h.connections, h.tables⟩
    · have hkept := h.tables.performAll hserde (program.foldlM_kept hmeaning)
      exact ⟨h.metadata, h.connections, hkept.withIdentity hserde ⟨rfl, rfl⟩⟩
  · exact ⟨h.metadata, h.connections, h.tables⟩

/-- A transaction of the wallet, also one that asks for less retention. -/
theorem Owned.wallet (h : Owned serde identity live database) (hserde : serde.RoundTrips)
    (other : FileIdentity) (calls : List WalletCall) :
    Owned serde identity (database.surviving serde live (.wallet other calls))
      (database.step serde (.wallet other calls)) := by
  rw [surviving, step]
  rcases hattach : database.file.attach other with e | u
  · exact h
  rcases hhost : database.host serde other calls with - | store
  · exact h
  obtain ⟨-, -, hnetwork, hcoverage, -⟩ := (NamesFile.attach_eq_ok_iff h.metadata).1 hattach
  have hstart : WalletStore.Tracks serde other.toStoreIdentity live
      (database.file.wallet other.toStoreIdentity) :=
    h.tables.withIdentity hserde ⟨hnetwork, hcoverage⟩
  have htracks := hstart.host hserde hhost
  exact ⟨h.metadata, h.connections,
    Store.Replays.withIdentity htracks hserde ⟨hnetwork.symm, hcoverage.symm⟩⟩

theorem Owned.step (h : Owned serde identity live database) (hserde : serde.RoundTrips)
    {event : DatabaseEvent B} (hpasses : event.PassesErrorsOn) :
    Owned serde identity (database.surviving serde live event) (database.step serde event) := by
  cases event with
  | connect other =>
    rw [surviving, Database.step]
    rcases hopen : database.file.initializeOrValidateMetadata other with e | file
    · exact h
    obtain ⟨rfl, rfl⟩ := (NamesFile.initialize_eq_ok_iff h.metadata).1 hopen
    refine ⟨h.metadata, fun other' hother ↦ ?_, h.tables⟩
    rcases List.mem_append.1 hother with hold | hlast
    · exact h.connections other' hold
    · exact List.mem_singleton.1 hlast
  | transaction connection program => exact h.transaction hserde connection hpasses
  | wallet other calls => exact h.wallet hserde other calls

theorem run_concat (events : List (DatabaseEvent B)) (event : DatabaseEvent B) :
    run serde (events ++ [event]) = ((run serde events).1.step serde event,
      (run serde events).1.surviving serde (run serde events).2 event) := by
  rw [run, List.foldl_append]
  rfl

end Database

end Sessions

namespace Sample

end Sample

end CoppiceNames
