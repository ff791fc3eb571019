import CoppiceNames.Reducer.RoundTrip

/-!
# The exact resolver

`ExactResolver` of `resolver.rs`: a reducer for one name. A block is filtered before the reducer
sees it — COMMITs stay, REVEALs and REFRESHes stay when they are for the name, every other operation
is dropped and every action is kept. Its snapshot wraps the reducer's and is refused unless all
records and journals are of that one name.

A filtered block reveals no other name, so the resolver's reducer only ever has records of its name,
and the round trip of the reducer's snapshot carries over (`snapshot_round_trip`).
-/

open Std hiding not_le not_lt

namespace CoppiceNames

/-- `StoredExactResolver`, with the reducer's own snapshot as bytes. -/
structure StoredExactResolver (B : Type) where
  formatVersion : U32
  deploymentId : Bytes32
  rulesetFingerprint : Bytes32
  rollbackRange : Option RollbackRange
  name : Str
  reducer : B

/-- `EXACT_RESOLVER_SNAPSHOT_FORMAT_VERSION`. -/
def exactResolverSnapshotFormatVersion : U32 := 3

section Exact

variable [Primitives]

/-- The operation matters for the exact replay of a name. -/
def Operation.relevant (operation : Operation) (nameId : NameId) : Bool :=
  match operation with
  | .commit _ => true
  | .reveal op => op.name.id = .ok nameId
  | .refresh op => op.name.id = .ok nameId

/-- The transaction without an irrelevant operation. -/
def Transaction.filtered (transaction : Transaction) (nameId : NameId) : Transaction :=
  { transaction with operation := transaction.operation.filter (·.relevant nameId) }

/-- The block that the resolver's reducer sees. -/
def Block.filtered (block : Block) (nameId : NameId) : Block :=
  { block with transactions := block.transactions.map (·.filtered nameId) }

/-- `is_exact_for`. -/
def Reducer.isExactFor (reducer : Reducer) (nameId : NameId) : Bool :=
  (reducer.heads.keys.all fun candidate ↦ candidate = nameId) &&
    reducer.history.all fun undo ↦ undo.heads.keys.all fun candidate ↦ candidate = nameId

/-- `ExactResolver`. -/
structure ExactResolver where
  name : Name
  nameId : NameId
  reducer : Reducer
  /-- The identifier is that of the name. -/
  id_eq : name.id = .ok nameId

namespace ExactResolver

/-- `ExactResolver::new`. -/
def new (parameters : Parameters) (activationParentHash : Bytes32) (name : Name)
    (verifier : ProofVerifier) : Except ApplyError ExactResolver :=
  match hid : name.id with
  | .error _ => .error .invalidParameters
  | .ok nameId =>
    match Reducer.new parameters activationParentHash verifier with
    | .error e => .error e
    | .ok reducer => .ok ⟨name, nameId, reducer, hid⟩

variable (resolver : ExactResolver)

/-- `ExactResolver::apply_block_detailed`. -/
def applyBlockDetailed (block : Block) (referencedCommits : List ReferencedCommit) :
    Option (Except ApplyError BlockOutcome × ExactResolver) :=
  (resolver.reducer.applyBlockDetailed (block.filtered resolver.nameId) referencedCommits).map
    fun result ↦ (result.1, { resolver with reducer := result.2 })

/-- `ExactResolver::apply_block_with_referenced_commits`. -/
def applyBlockWithReferencedCommits (block : Block) (referencedCommits : List ReferencedCommit) :
    Option (Except ApplyError (List Accepted) × ExactResolver) :=
  (resolver.applyBlockDetailed block referencedCommits).map fun result ↦
    (result.1.map BlockOutcome.accepted, result.2)

/-- `ExactResolver::apply_block`. -/
def applyBlock (block : Block) : Option (Except ApplyError (List Accepted) × ExactResolver) :=
  resolver.applyBlockWithReferencedCommits block []

/-- `ExactResolver::resolve`. -/
def resolve (height : U32) : Except ResolutionError Resolution :=
  resolver.reducer.resolveAuthenticated resolver.name height

/-- `ExactResolver::tip`. -/
def tip : Option ReducerTip := resolver.reducer.tip

/-- `ExactResolver::rollback_tip`. -/
def rollbackTip (expectedHash : Bytes32) : Except RollbackError Unit × ExactResolver :=
  let result := resolver.reducer.rollbackTipDetailed expectedHash
  (result.1.map fun _ ↦ (), { resolver with reducer := result.2 })

/-- `ExactResolver::finalize_through`. -/
def finalizeThrough (height : U32) : Except FinalizationError Unit × ExactResolver :=
  let result := resolver.reducer.finalizeThrough height
  (result.1, { resolver with reducer := result.2 })

/-- `ExactResolver::save_snapshot`. -/
def saveSnapshot {B : Type} (serde : Serde B StoredReducer)
    (exactSerde : Serde B (StoredExactResolver B)) : Except SnapshotError B :=
  match resolver.reducer.saveSnapshot serde with
  | .error e => .error e
  | .ok reducer =>
    match exactSerde.toVec
        { formatVersion := exactResolverSnapshotFormatVersion
          deploymentId := resolver.reducer.rules.parameters.deploymentId
          rulesetFingerprint := rulesetFingerprint
          rollbackRange := rollbackRange resolver.reducer.history
          name := resolver.name.asStr
          reducer := reducer } with
    | some bytes => .ok bytes
    | none => .error .encoding

/-- `ExactResolver::load_snapshot`. -/
def loadSnapshot {B : Type} (serde : Serde B StoredReducer)
    (exactSerde : Serde B (StoredExactResolver B)) (parameters : Parameters) (network : Network)
    (name : Name) (verifier : ProofVerifier) (bytes : B) : Except SnapshotError ExactResolver :=
  match exactSerde.fromSlice bytes with
  | none => .error .encoding
  | some stored =>
    if stored.formatVersion ≠ exactResolverSnapshotFormatVersion then .error .unsupportedFormat
    else if stored.name ≠ name.asStr then .error .nameMismatch
    else if stored.deploymentId ≠ parameters.deploymentId ∨
        stored.rulesetFingerprint ≠ rulesetFingerprint then .error .parametersMismatch
    else
      match hid : name.id with
      | .error _ => .error .nameMismatch
      | .ok nameId =>
        match Reducer.loadSnapshot serde parameters network verifier stored.reducer with
        | .error e => .error e
        | .ok reducer =>
          if reducer.isExactFor nameId = false then .error .nameMismatch
          else if rollbackRange reducer.history ≠ stored.rollbackRange then .error .invalidHistory
          else .ok ⟨name, nameId, reducer, hid⟩

/-- Perform a call on the resolver. -/
def call : Call → Option (Reply × ExactResolver)
  | .applyBlock block evidence =>
    (resolver.applyBlockDetailed block evidence).map fun result ↦ (.applied result.1, result.2)
  | .rollbackTip expectedHash =>
    let result := resolver.reducer.rollbackTipDetailed expectedHash
    some (.rolledBack result.1, { resolver with reducer := result.2 })
  | .finalizeThrough height =>
    let result := resolver.finalizeThrough height
    some (.finalized result.1, result.2)

end ExactResolver

/-! ### The resolver as a reducer on filtered blocks -/

/-- The call that the resolver's reducer sees. -/
def Call.filtered (nameId : NameId) : Call → Call
  | .applyBlock block evidence => .applyBlock (block.filtered nameId) evidence
  | .rollbackTip expectedHash => .rollbackTip expectedHash
  | .finalizeThrough height => .finalizeThrough height

namespace ExactResolver

variable {resolver next : ExactResolver}

theorem new_eq_ok_iff {parameters : Parameters} {parent : Bytes32} {name : Name}
    {verifier : ProofVerifier} : new parameters parent name verifier = .ok resolver ↔
      resolver.name = name ∧ Reducer.new parameters parent verifier = .ok resolver.reducer := by
  rw [new]
  constructor
  · intro h
    split at h
    · exact absurd h (by simp)
    · split at h
      · exact absurd h (by simp)
      · rename_i reducer hreducer
        rw [Except.ok.injEq] at h
        rw [← h]
        exact ⟨rfl, hreducer⟩
  · rintro ⟨rfl, hreducer⟩
    split
    · rename_i e hid
      rw [resolver.id_eq] at hid
      exact absurd hid (by simp)
    · rename_i nameId hid
      rw [hreducer]
      have hname := resolver.id_eq
      rw [hid, Except.ok.injEq] at hname
      subst hname
      rfl

/-- A call of the resolver is one of its reducer. -/
theorem call_eq_some_iff {c : Call} {reply : Reply} :
    resolver.call c = some (reply, next) ↔
      next.name = resolver.name ∧
        resolver.reducer.call (c.filtered resolver.nameId) = some (reply, next.reducer) := by
  have hnext : ∀ reducer : Reducer, { resolver with reducer := reducer } = next ↔
      next.name = resolver.name ∧ reducer = next.reducer := by
    intro reducer
    constructor
    · rintro rfl
      exact ⟨rfl, rfl⟩
    · rintro ⟨hname, hreducer⟩
      have hid : resolver.nameId = next.nameId := by
        have h := next.id_eq
        rw [hname, resolver.id_eq, Except.ok.injEq] at h
        exact h
      rcases next with ⟨name, nameId, reducer', id_eq⟩
      subst hname hreducer hid
      rfl
  rcases c with ⟨block, evidence⟩ | expectedHash | height
  · rw [call, applyBlockDetailed, Call.filtered, Reducer.call]
    simp only [Option.map_map, Option.map_eq_some_iff, Function.comp_apply, Prod.mk.injEq, hnext]
    grind
  · rw [call, Call.filtered, Reducer.call]
    simp only [Option.some.injEq, Prod.mk.injEq, hnext]
    grind
  · rw [call, Call.filtered, Reducer.call, finalizeThrough]
    simp only [Option.some.injEq, Prod.mk.injEq, hnext]
    grind

end ExactResolver

/-- Filtering only drops operations. -/
theorem Block.operation_of_filtered {block : Block} {nameId : NameId} {transaction : Transaction}
    (hmem : transaction ∈ (block.filtered nameId).transactions) {op : Operation}
    (hop : transaction.operation = some op) :
    op.relevant nameId = true ∧ ∃ original ∈ block.transactions, original.operation = some op := by
  rw [Block.filtered, List.mem_map] at hmem
  obtain ⟨original, horiginal, rfl⟩ := hmem
  rw [Transaction.filtered, Option.filter_eq_some_iff] at hop
  exact ⟨hop.2, original, horiginal, hop.1⟩

theorem Block.CanonicalFor.filtered {block : Block} {network : Network}
    (h : block.CanonicalFor network) (nameId : NameId) :
    (block.filtered nameId).CanonicalFor network := by
  intro transaction hmem op ua hop hua
  obtain ⟨-, original, horiginal, hsame⟩ := operation_of_filtered hmem hop
  exact h original horiginal op ua hsame hua

theorem Block.reveals_filtered (block : Block) (nameId : NameId) :
    (block.filtered nameId).Reveals {nameId} := by
  intro transaction hmem op other hop hid
  obtain ⟨hrelevant, -⟩ := operation_of_filtered hmem hop
  rw [Operation.relevant, decide_eq_true_eq, hid, Except.ok.injEq] at hrelevant
  exact hrelevant

theorem Restorable.isExactFor {network : Network} {nameId : NameId} {reducer : Reducer}
    (h : Restorable network {nameId} reducer) : reducer.isExactFor nameId = true := by
  rw [Reducer.isExactFor, Bool.and_eq_true, List.all_eq_true, List.all_eq_true]
  refine ⟨fun candidate hmem ↦ ?_, fun undo hundo ↦ ?_⟩
  · rw [decide_eq_true_eq]
    exact h.head_mem candidate (ExtTreeMap.mem_keys.1 hmem)
  · rw [List.all_eq_true]
    intro candidate hmem
    rw [decide_eq_true_eq]
    exact (h.sound undo hundo).head_mem candidate (ExtTreeMap.mem_keys.1 hmem)

/-! ### Snapshots -/

/-- The states that calls with canonical addresses and snapshot reloads reach from a new
resolver. -/
inductive ExactReloaded {B : Type} (serde : Serde B StoredReducer)
    (exactSerde : Serde B (StoredExactResolver B)) (network : Network) (parameters : Parameters)
    (parent : Bytes32) (name : Name) (verifier : ProofVerifier) : ExactResolver → Prop
  | new {resolver : ExactResolver}
      (h : ExactResolver.new parameters parent name verifier = .ok resolver) :
      ExactReloaded serde exactSerde network parameters parent name verifier resolver
  | call {resolver next : ExactResolver} {c : Call} {reply : Reply}
      (hreached : ExactReloaded serde exactSerde network parameters parent name verifier resolver)
      (hcanonical : ∀ block, c.block = some block → block.CanonicalFor network)
      (h : resolver.call c = some (reply, next)) :
      ExactReloaded serde exactSerde network parameters parent name verifier next
  | reload {resolver next : ExactResolver} {bytes : B}
      (hreached : ExactReloaded serde exactSerde network parameters parent name verifier resolver)
      (hsave : resolver.saveSnapshot serde exactSerde = .ok bytes)
      (hload : ExactResolver.loadSnapshot serde exactSerde parameters network name verifier bytes =
        .ok next) :
      ExactReloaded serde exactSerde network parameters parent name verifier next

namespace ExactResolver

variable {B : Type} {serde : Serde B StoredReducer} {exactSerde : Serde B (StoredExactResolver B)}
  {network : Network} {parameters : Parameters} {parent : Bytes32} {verifier : ProofVerifier}
  {resolver next : ExactResolver}

/-- Calls of the resolver keep its reducer among the surviving ones of its name. -/
theorem survivesNew_call
    (h : SurvivesNew network {resolver.nameId} parameters parent verifier resolver.reducer)
    {c : Call} {reply : Reply}
    (hcanonical : ∀ block, c.block = some block → block.CanonicalFor network)
    (hcall : resolver.call c = some (reply, next)) :
    SurvivesNew network {resolver.nameId} parameters parent verifier next.reducer := by
  refine h.call (fun block hblock ↦ ?_) (call_eq_some_iff.1 hcall).2
  rcases c with ⟨original, evidence⟩ | expectedHash | height
  · rw [Call.filtered, Call.block, Option.some.injEq] at hblock
    rw [← hblock]
    exact ⟨(hcanonical original rfl).filtered resolver.nameId,
      original.reveals_filtered resolver.nameId⟩
  · exact absurd hblock (by simp [Call.filtered, Call.block])
  · exact absurd hblock (by simp [Call.filtered, Call.block])

/-- **A snapshot round trip of the resolver**, from that of its reducer. -/
theorem roundTrip
    (h : SurvivesNew network {resolver.nameId} parameters parent verifier resolver.reducer)
    (hserde : serde.RoundTrips) (hexact : exactSerde.RoundTrips) :
    ∃ bytes, resolver.saveSnapshot serde exactSerde = .ok bytes ∧
      loadSnapshot serde exactSerde parameters network resolver.name verifier bytes =
        .ok resolver := by
  obtain ⟨inner, hsave, hload⟩ := h.roundTrip hserde
  obtain ⟨bytes, hwrite, hread⟩ := hexact
    { formatVersion := exactResolverSnapshotFormatVersion
      deploymentId := resolver.reducer.rules.parameters.deploymentId
      rulesetFingerprint := rulesetFingerprint
      rollbackRange := rollbackRange resolver.reducer.history
      name := resolver.name.asStr
      reducer := inner }
  refine ⟨bytes, by rw [saveSnapshot, hsave]; dsimp only; rw [hwrite], ?_⟩
  rw [loadSnapshot, hread]
  dsimp only
  rw [if_neg (not_not.2 rfl), if_neg (not_not.2 rfl), if_neg (by simp [h.rules.1])]
  split
  · rename_i e hid
    rw [resolver.id_eq] at hid
    exact absurd hid (by simp)
  · rename_i nameId hid
    have hsame := resolver.id_eq
    rw [hid, Except.ok.injEq] at hsame
    subst hsame
    rw [hload]
    dsimp only
    rw [if_neg (by rw [h.restorable.isExactFor]; decide), if_neg (not_not.2 rfl)]

/-- Reloads add no states of the resolver either. -/
theorem survivesNew_of_reloaded (hserde : serde.RoundTrips) (hexact : exactSerde.RoundTrips)
    {name : Name}
    (h : ExactReloaded serde exactSerde network parameters parent name verifier resolver) :
    resolver.name = name ∧
      SurvivesNew network {resolver.nameId} parameters parent verifier resolver.reducer := by
  induction h with
  | new h =>
    obtain ⟨hname, hnew⟩ := new_eq_ok_iff.1 h
    exact ⟨hname, .new hnew⟩
  | @call resolver next c reply _ hcanonical h ih =>
    obtain ⟨hname, hsurvives⟩ := ih
    have hid : next.nameId = resolver.nameId := by
      have hnext := next.id_eq
      rw [(call_eq_some_iff.1 h).1, resolver.id_eq, Except.ok.injEq] at hnext
      exact hnext.symm
    rw [hid]
    exact ⟨(call_eq_some_iff.1 h).1.trans hname, survivesNew_call hsurvives hcanonical h⟩
  | reload _ hsave hload ih =>
    obtain ⟨hname, hsurvives⟩ := ih
    obtain ⟨bytes, hsave', hload'⟩ := roundTrip hsurvives hserde hexact
    rw [hsave, Except.ok.injEq] at hsave'
    rw [← hsave', hname, hload, Except.ok.injEq] at hload'
    rw [hload']
    exact ⟨hname, hsurvives⟩

end ExactResolver

/-- **Snapshot round trip.** Every reducer that calls and earlier reloads reach from a new one saves
to bytes that load as the same reducer, indexes and rollback history included; and so does every
exact resolver, under its name. -/
theorem snapshot_round_trip {B : Type} {serde : Serde B StoredReducer}
    {exactSerde : Serde B (StoredExactResolver B)} (hserde : serde.RoundTrips)
    (hexact : exactSerde.RoundTrips) (network : Network) (parameters : Parameters)
    (parent : Bytes32) (verifier : ProofVerifier) :
    (∀ reducer, Reloaded serde network parameters parent verifier reducer →
      ∃ bytes, reducer.saveSnapshot serde = .ok bytes ∧
        Reducer.loadSnapshot serde parameters network verifier bytes = .ok reducer) ∧
    ∀ name resolver,
      ExactReloaded serde exactSerde network parameters parent name verifier resolver →
      ∃ bytes, resolver.saveSnapshot serde exactSerde = .ok bytes ∧
        ExactResolver.loadSnapshot serde exactSerde parameters network name verifier bytes =
          .ok resolver := by
  refine ⟨fun reducer h ↦ (h.survivesNew hserde).roundTrip hserde, fun name resolver h ↦ ?_⟩
  obtain ⟨hname, hsurvives⟩ := ExactResolver.survivesNew_of_reloaded hserde hexact h
  rw [← hname]
  exact ExactResolver.roundTrip hsurvives hserde hexact

end Exact

/-! ### A stored resolver -/

namespace Sample

/-- Documents that hold the stored structures themselves. -/
inductive Document
  | reducer (stored : StoredReducer)
  | resolver (stored : StoredExactResolver Document)

/-- Reducers as documents. -/
def serde : Serde Document StoredReducer where
  toVec stored := some (.reducer stored)
  fromSlice
    | .reducer stored => some stored
    | .resolver _ => none

/-- Resolvers as documents. -/
def exactSerde : Serde Document (StoredExactResolver Document) where
  toVec stored := some (.resolver stored)
  fromSlice
    | .resolver stored => some stored
    | .reducer _ => none

theorem serde_roundTrips : serde.RoundTrips := fun _ ↦ ⟨_, rfl, rfl⟩

theorem exactSerde_roundTrips : exactSerde.RoundTrips := fun _ ↦ ⟨_, rfl, rfl⟩

/-- The blocks of the small chain carry regtest addresses. -/
theorem block_canonicalFor {block : Block} (h : block ∈ [block0, block1, block2]) :
    block.CanonicalFor .regtest := by
  intro transaction hmem op address hop haddress
  have hua : address = ua := by
    simp only [List.mem_cons, List.not_mem_nil, or_false] at h
    rcases h with rfl | rfl | rfl <;>
      simp only [block0, block1, block2, List.mem_singleton] at hmem <;> subst hmem <;>
      simp only [commitTransaction, revealTransaction, spendTransaction, Option.some.injEq,
        reduceCtorEq] at hop
    · subst hop
      exact absurd haddress (by simp [Operation.ua])
    · subst hop
      exact (Option.some.inj haddress).symm
  rw [hua]
  exact ua_canonicalFor

/-- The calls of the small chain. -/
def chainCalls : List Call :=
  [.applyBlock block0 [], .applyBlock block1 [], .applyBlock block2 []]

/-- A run of the small chain is a reloaded state. -/
theorem reloaded_run {reducer next : Reducer} {calls : List Call} {replies : List Reply}
    (hcalls : calls ⊆ chainCalls)
    (h : Reloaded serde .regtest parameters parent verifier reducer)
    (hrun : reducer.run calls = some (replies, next)) :
    Reloaded serde .regtest parameters parent verifier next := by
  induction calls generalizing reducer replies with
  | nil =>
    rw [Reducer.run, Option.some.injEq, Prod.mk.injEq] at hrun
    rw [← hrun.2]
    exact h
  | cons c calls ih =>
    obtain ⟨reply, middle, rest, hcall, hrest, rfl⟩ := Reducer.run_cons_eq_some_iff.1 hrun
    refine ih (fun c' hc' ↦ hcalls (List.mem_cons_of_mem c hc')) (h.call (fun block hblock ↦ ?_)
      hcall) hrest
    have hc := hcalls List.mem_cons_self
    simp only [chainCalls, List.mem_cons, List.not_mem_nil, or_false] at hc
    rcases hc with rfl | rfl | rfl <;> simp only [Call.block, Option.some.injEq] at hblock <;>
      exact block_canonicalFor (by simp [← hblock])

/-- There is a resolver for `alice`. -/
theorem exists_resolver : ∃ resolver,
    ExactResolver.new parameters parent alice verifier = .ok resolver := by
  have hexact : (ExactResolver.new parameters parent alice verifier).isOk = true := by
    decide +kernel
  rcases hnew : ExactResolver.new parameters parent alice verifier with e | resolver
  · rw [hnew] at hexact
    exact absurd hexact Bool.false_ne_true
  · exact ⟨resolver, rfl⟩

theorem snapshot_round_trip_alice :
    (∃ reducer, Reloaded serde .regtest parameters parent verifier reducer ∧
      reducer.tipHeight = some 2 ∧
      ∃ bytes, reducer.saveSnapshot serde = .ok bytes ∧
        Reducer.loadSnapshot serde parameters .regtest verifier bytes = .ok reducer) ∧
    ∃ resolver, ExactReloaded serde exactSerde .regtest parameters parent alice verifier resolver ∧
      ∃ bytes, resolver.saveSnapshot serde exactSerde = .ok bytes ∧
        ExactResolver.loadSnapshot serde exactSerde parameters .regtest alice verifier bytes =
          .ok resolver := by
  have hround := snapshot_round_trip serde_roundTrips exactSerde_roundTrips .regtest parameters
    parent verifier
  have hrun : (start.run chainCalls).map (fun result ↦ result.2.tipHeight) = some (some 2) := by
    decide +kernel
  rw [Option.map_eq_some_iff] at hrun
  obtain ⟨⟨replies, reducer⟩, hreducer, htip⟩ := hrun
  have hreloaded := reloaded_run (List.Subset.refl _) (.new new_eq_start) hreducer
  obtain ⟨resolver, hresolver⟩ := exists_resolver
  exact ⟨⟨reducer, hreloaded, htip, hround.1 reducer hreloaded⟩,
    resolver, .new hresolver, hround.2 alice resolver (.new hresolver)⟩

end Sample

end CoppiceNames
