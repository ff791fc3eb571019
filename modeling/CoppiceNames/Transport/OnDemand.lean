import CoppiceNames.Library.Checked
import CoppiceNames.Transport.Inspection

/-!
# A COMMIT fetched on demand

A COMMIT reaches a reducer in two ways. Forward replay inspects a transaction at the generic route
and at the route of the requested name, and keeps an operation only when the other route is quiet.
Evidence for a REVEAL inspects one historical transaction at the generic route alone.

The two agree on every transaction that carries no COMMIT. On one that does, they agree exactly when
forward replay can represent the block and the route of the requested name is quiet: a second
candidate there makes the COMMIT inert in replay, and evidence still admits it.
-/

namespace CoppiceNames

section OnDemand

variable [Primitives] [Core]

/-! ### Effects that Names can represent -/

/-- As many nullifiers as commitments, no more than action indices, all canonical field elements. -/
def IronwoodEffects.Canonical (effects : IronwoodEffects) : Prop :=
  effects.nullifiers.length = effects.commitments.length ∧
    effects.commitments.length ≤ 4294967296 ∧
    ∀ bytes ∈ effects.nullifiers ++ effects.commitments,
      ∃ x, FieldElement.fromBytes bytes = .ok x

omit [Primitives] [Core] in
theorem exists_ofUsize_iff {n : ℕ} : (∃ c, U32.ofUsize n = some c) ↔ n < 4294967296 := by
  constructor
  · rintro ⟨c, hc⟩
    rw [← U32.ofUsize_eq_some_iff.1 hc]
    exact c.isLt
  · intro hn
    exact ⟨⟨n, hn⟩, U32.ofUsize_eq_some_iff.2 rfl⟩

omit [Primitives] in
theorem exists_coreAction_iff {nullifier commitment : Bytes32} {index : ℕ} :
    (∃ action, coreAction ((nullifier, commitment), index) = .ok action) ↔
      index < 4294967296 ∧ (∃ x, FieldElement.fromBytes nullifier = .ok x) ∧
        ∃ x, FieldElement.fromBytes commitment = .ok x := by
  rw [← exists_ofUsize_iff, coreAction]
  dsimp only
  rcases U32.ofUsize index with - | actionIndex
  · simp
  rcases FieldElement.fromBytes nullifier with e | x
  · simp
  rcases FieldElement.fromBytes commitment with e | y
  · simp
  · simp

omit [Primitives] in
/-- A transaction has actions at the Names boundary exactly when its effects are canonical. -/
theorem exists_coreActions_iff {effects : IronwoodEffects} :
    (∃ actions, coreActions effects = .ok actions) ↔ effects.Canonical := by
  rw [coreActions, IronwoodEffects.Canonical]
  by_cases hlength : effects.nullifiers.length = effects.commitments.length
  swap
  · rw [if_pos hlength]
    exact ⟨fun ⟨_, h⟩ ↦ absurd h (by simp), fun h ↦ absurd h.1 hlength⟩
  rw [if_neg (not_not.2 hlength), Except.exists_mapM_eq_ok_iff, and_iff_right hlength]
  -- the entry of each position, by its index
  have hentry : ∀ k (hk : k < effects.commitments.length),
      ((effects.nullifiers[k], effects.commitments[k]), k) ∈
        (effects.nullifiers.zip effects.commitments).zipIdx := by
    intro k hk
    rw [List.mk_mem_zipIdx_iff_getElem?, List.getElem?_zip_eq_some]
    exact ⟨List.getElem?_eq_getElem _, List.getElem?_eq_getElem _⟩
  constructor
  · intro h
    have hvalid : ∀ k (hk : k < effects.commitments.length), k < 4294967296 ∧
        (∃ x, FieldElement.fromBytes effects.nullifiers[k] = .ok x) ∧
          ∃ x, FieldElement.fromBytes effects.commitments[k] = .ok x :=
      fun k hk ↦ exists_coreAction_iff.1 (h _ (hentry k hk))
    refine ⟨?_, fun bytes hbytes ↦ ?_⟩
    · by_contra hlong
      exact absurd (hvalid 4294967296 (by omega)).1 (by omega)
    · rcases List.mem_append.1 hbytes with hmem | hmem
      · obtain ⟨k, hk, rfl⟩ := List.getElem_of_mem hmem
        exact (hvalid k (hlength ▸ hk)).2.1
      · obtain ⟨k, hk, rfl⟩ := List.getElem_of_mem hmem
        exact (hvalid k hk).2.2
  · rintro ⟨hcount, hcanonical⟩ ⟨⟨nullifier, commitment⟩, k⟩ hmem
    rw [List.mk_mem_zipIdx_iff_getElem?, List.getElem?_zip_eq_some] at hmem
    obtain ⟨hnullifier, hcommitment⟩ := hmem
    obtain ⟨hk, -⟩ := List.getElem?_eq_some_iff.1 hcommitment
    refine exists_coreAction_iff.2 ⟨by omega, ?_, ?_⟩
    · exact hcanonical _ (List.mem_append_left _ (List.mem_of_getElem? hnullifier))
    · exact hcanonical _ (List.mem_append_right _ (List.mem_of_getElem? hcommitment))

/-! ### One transaction -/

variable {runtime : Core.Runtime} {deployment : DeploymentParameters} {network : Network}
  {name : Name}

theorem validateRuntime_eq_ok (hvalid : deployment.validate = .ok deployment)
    (hruntime : deployment.coreRuntimeId = Core.coreRuntimeId runtime) :
    validateRuntime deployment runtime = .ok deployment := by
  rw [validateRuntime, hvalid]
  exact if_neg (not_not.2 hruntime)

theorem inspectAuthenticated_eq_ok (hvalid : deployment.validate = .ok deployment)
    {transaction : CoreTransactionContext} {full : Core.FullTransaction}
    (hfull : transaction.validatedFullTransaction = some full) (rendezvous : Core.Rendezvous)
    (expected : ExpectedRoute) :
    inspectAuthenticated transaction rendezvous deployment network expected =
      .ok (inspectValidated full rendezvous deployment network expected) := by
  rw [inspectAuthenticated, hvalid, hfull]

theorem validate_of_validateRuntime {validated : DeploymentParameters}
    (h : validateRuntime deployment runtime = .ok validated) :
    validated.validate = .ok validated := by
  rw [validateRuntime] at h
  split at h
  · exact absurd h (by simp)
  rename_i found hfound
  split at h
  · exact absurd h (by simp)
  obtain rfl := Except.ok.inj h
  obtain ⟨hsame, -, -⟩ := DeploymentParameters.validate_eq_ok hfound
  rwa [← hsame] at hfound

/-- A transaction in a block is inspected like its full transaction alone. -/
theorem inspectCommitTransaction_eq {transaction : CoreTransactionContext}
    {full : Core.FullTransaction} (hfull : transaction.validatedFullTransaction = some full) :
    inspectCommitTransaction transaction runtime deployment network =
      inspectValidatedCommitTransaction full runtime deployment network := by
  rw [inspectCommitTransaction, inspectValidatedCommitTransaction]
  rcases hvalidated : validateRuntime deployment runtime with e | validated
  · rfl
  · exact inspectAuthenticated_eq_ok (validate_of_validateRuntime hvalidated) hfull _ _

theorem inspectNameTransaction_eq {transaction : CoreTransactionContext}
    {full : Core.FullTransaction} (hfull : transaction.validatedFullTransaction = some full) :
    inspectNameTransaction transaction runtime deployment network name =
      inspectValidatedNameTransaction full runtime deployment network name := by
  rw [inspectNameTransaction, inspectValidatedNameTransaction]
  rcases hvalidated : validateRuntime deployment runtime with e | validated
  · rfl
  · have hsame : ∀ rendezvous, inspectAuthenticated transaction rendezvous validated network
        (.name name) = .ok (inspectValidated full rendezvous validated network (.name name)) :=
      fun rendezvous ↦
        inspectAuthenticated_eq_ok (validate_of_validateRuntime hvalidated) hfull rendezvous _
    show (nameRendezvous validated name >>= fun rendezvous ↦
      inspectAuthenticated transaction rendezvous validated network (.name name)) = _
    rw [bind_congr hsame]
    rfl

/-- No COMMIT is an operation on the route of a name. -/
theorem inspectValidated_name_ne_commit (hvalid : deployment.validate = .ok deployment)
    (full : Core.FullTransaction) (rendezvous : Core.Rendezvous) (commitment : Commitment) :
    inspectValidated full rendezvous deployment network (.name name) ≠
      .operation (.commit commitment) := by
  intro h
  obtain ⟨deploymentId, hid⟩ := DeploymentParameters.exists_deploymentId hvalid
  exact absurd ((classifyInspection_eq_operation_iff hid).1 h).2 (by simp [onExpectedRoute])

/-- Of two inspections a COMMIT survives only from the first, and only when the second is quiet. -/
theorem selectSingleOperation_eq_commit_iff {commit named : NamesTransportStatus}
    {commitment : Commitment} (hnamed : named ≠ .operation (.commit commitment)) :
    selectSingleOperation commit named = some (.commit commitment) ↔
      commit = .operation (.commit commitment) ∧
        (named = .noOperation ∨ named = .rejected .wrongApplication) := by
  rw [selectSingleOperation.eq_def]
  split
  · simp
  · rename_i operation
    have hne : operation ≠ .commit commitment := fun h ↦ hnamed (by rw [h])
    simp [hne]
  · simp
  · rename_i operation
    have hne : operation ≠ .commit commitment := fun h ↦ hnamed (by rw [h])
    simp [hne]
  · rename_i hquiet _ hwrong _
    refine ⟨fun h ↦ absurd h (by simp), ?_⟩
    rintro ⟨hcommit, hnone | happlication⟩
    · exact absurd hnone (hquiet _ hcommit)
    · exact absurd happlication (hwrong _ hcommit)

/-- Forward replay of a transaction without full bytes. -/
theorem exactNameTransaction_of_none {transaction : CoreTransactionContext}
    (hfull : transaction.validatedFullTransaction = none) :
    (∃ t, exactNameTransaction runtime deployment network name transaction = .ok t) ↔
      transaction.ironwoodEffects.Canonical := by
  rw [← exists_coreActions_iff, exactNameTransaction, hfull]
  constructor
  · rintro ⟨t, ht⟩
    obtain ⟨actions, hactions, -⟩ := Except.bind_eq_ok_iff.1 ht
    exact ⟨actions, hactions⟩
  · rintro ⟨actions, hactions⟩
    exact ⟨_, Except.bind_eq_ok_iff.2 ⟨actions, hactions, rfl⟩⟩

/-- Forward replay of a transaction whose full bytes Core authenticated. -/
theorem exactNameTransaction_eq_ok_iff (hvalid : deployment.validate = .ok deployment)
    (hruntime : deployment.coreRuntimeId = Core.coreRuntimeId runtime)
    {transaction : CoreTransactionContext} {full : Core.FullTransaction}
    (hfull : transaction.validatedFullTransaction = some full) {t : Transaction} :
    exactNameTransaction runtime deployment network name transaction = .ok t ↔
      ∃ actions rendezvous, coreActions transaction.ironwoodEffects = .ok actions ∧
        nameRendezvous deployment name = .ok rendezvous ∧
        t = ⟨transaction.txIndex, transaction.txid, actions, selectSingleOperation
          (inspectValidated full (Core.fromValidated runtime) deployment network .commit)
          (inspectValidated full rendezvous deployment network (.name name))⟩ := by
  have hvalidated := validateRuntime_eq_ok hvalid hruntime
  rw [exactNameTransaction, hfull]
  simp only [inspectCommitTransaction_eq hfull, inspectNameTransaction_eq hfull,
    inspectValidatedCommitTransaction, inspectValidatedNameTransaction, hvalidated, pure,
    Except.pure, Except.bind_eq_ok_iff, Except.mapError_eq_ok_iff, Except.ok.injEq, exists_eq_left']
  constructor
  · rintro ⟨actions, hactions, -, ⟨rendezvous, hrendezvous, rfl⟩, ht⟩
    exact ⟨actions, rendezvous, hactions, hrendezvous, ht.symm⟩
  · rintro ⟨actions, rendezvous, hactions, hrendezvous, rfl⟩
    exact ⟨actions, hactions, _, ⟨rendezvous, hrendezvous, rfl⟩, rfl⟩

/-- Forward replay of any transaction fails only on its effects, once the requested name has a
rendezvous. -/
theorem exists_exactNameTransaction_iff (hvalid : deployment.validate = .ok deployment)
    (hruntime : deployment.coreRuntimeId = Core.coreRuntimeId runtime)
    {rendezvous : Core.Rendezvous} (hrendezvous : nameRendezvous deployment name = .ok rendezvous)
    (transaction : CoreTransactionContext) :
    (∃ t, exactNameTransaction runtime deployment network name transaction = .ok t) ↔
      transaction.ironwoodEffects.Canonical := by
  rcases hfull : transaction.validatedFullTransaction with - | full
  · exact exactNameTransaction_of_none hfull
  · rw [← exists_coreActions_iff]
    simp only [exactNameTransaction_eq_ok_iff hvalid hruntime hfull]
    constructor
    · rintro ⟨t, actions, rendezvous', hactions, -, -⟩
      exact ⟨actions, hactions⟩
    · rintro ⟨actions, hactions⟩
      exact ⟨_, actions, rendezvous, hactions, hrendezvous, rfl⟩

/-! ### On demand and in replay -/

/-- A transaction carries a COMMIT for evidence: at the generic route. -/
def CarriesCommit (full : Core.FullTransaction) (runtime : Core.Runtime)
    (deployment : DeploymentParameters) (network : Network) (commitment : Commitment) : Prop :=
  let inspection := Core.inspectTransactionAtRendezvous full (Core.fromValidated runtime)
    deployment.coreRuntimeId
  Carries inspection.1 inspection.2 deployment network (.commit commitment)

/-- Forward replay for a name sees one operation at most: Names can represent the block, and the
route of the name is quiet. -/
def Unambiguous (block : CoreBlockContext) (full : Core.FullTransaction)
    (deployment : DeploymentParameters) (name : Name) : Prop :=
  (∀ transaction ∈ block.transactions, transaction.ironwoodEffects.Canonical) ∧
    ∃ rendezvous, nameRendezvous deployment name = .ok rendezvous ∧
      let inspection := Core.inspectTransactionAtRendezvous full rendezvous deployment.coreRuntimeId
      Quiet inspection.1 inspection.2 deployment

theorem inspectValidatedCommitTransaction_eq_commit_iff
    (hvalid : deployment.validate = .ok deployment)
    (hruntime : deployment.coreRuntimeId = Core.coreRuntimeId runtime)
    {full : Core.FullTransaction} {commitment : Commitment} :
    inspectValidatedCommitTransaction full runtime deployment network =
        .ok (.operation (.commit commitment)) ↔
      CarriesCommit full runtime deployment network commitment := by
  obtain ⟨deploymentId, hid⟩ := DeploymentParameters.exists_deploymentId hvalid
  rw [inspectValidatedCommitTransaction, validateRuntime_eq_ok hvalid hruntime]
  show (Except.ok (inspectValidated full _ deployment network .commit) : Except _ _) = _ ↔ _
  rw [Except.ok.injEq, inspectValidated, classifyInspection_eq_operation_iff hid]
  exact and_iff_left rfl

theorem inspectExactNameBlock_commit_iff (hvalid : deployment.validate = .ok deployment)
    (hruntime : deployment.coreRuntimeId = Core.coreRuntimeId runtime) {block : CoreBlockContext}
    {i : ℕ} {transaction : CoreTransactionContext} (hi : block.transactions[i]? = some transaction)
    {full : Core.FullTransaction} (hfull : transaction.validatedFullTransaction = some full)
    {commitment : Commitment} :
    (∃ b t, inspectExactNameBlock block runtime deployment network name = .ok b ∧
        b.transactions[i]? = some t ∧ t.operation = some (.commit commitment)) ↔
      CarriesCommit full runtime deployment network commitment ∧
        Unambiguous block full deployment name := by
  obtain ⟨deploymentId, hid⟩ := DeploymentParameters.exists_deploymentId hvalid
  -- what replay keeps of the transaction, once the name has a rendezvous
  have hselect : ∀ rendezvous, selectSingleOperation
      (inspectValidated full (Core.fromValidated runtime) deployment network .commit)
      (inspectValidated full rendezvous deployment network (.name name)) =
        some (.commit commitment) ↔ CarriesCommit full runtime deployment network commitment ∧
          let inspection := Core.inspectTransactionAtRendezvous full rendezvous
            deployment.coreRuntimeId
          Quiet inspection.1 inspection.2 deployment := by
    intro rendezvous
    rw [selectSingleOperation_eq_commit_iff
      (inspectValidated_name_ne_commit hvalid full rendezvous commitment), inspectValidated,
      inspectValidated, classifyInspection_eq_operation_iff hid, classifyInspection_quiet_iff hid]
    exact and_congr_left' (and_iff_left rfl)
  have hblock : ∀ b, inspectExactNameBlock block runtime deployment network name = .ok b ↔
      ∃ transactions, block.transactions.mapM
        (exactNameTransaction runtime deployment network name) =
        .ok transactions ∧ b = ⟨block.height, block.blockHash, block.prevBlockHash,
          transactions⟩ := by
    intro b
    simp only [inspectExactNameBlock, inspectExactNameBlockParts,
      validateRuntime_eq_ok hvalid hruntime, Except.bind_eq_ok_iff, Except.mapError_eq_ok_iff,
      Except.ok.injEq, exists_eq_left']
    exact exists_congr fun _ ↦ and_congr_right'
      ⟨fun h ↦ (Except.ok.inj h).symm, fun h ↦ by rw [h]; rfl⟩
  constructor
  · rintro ⟨b, t, hb, ht, hoperation⟩
    obtain ⟨transactions, hmap, rfl⟩ := (hblock b).1 hb
    obtain ⟨t', ht', hexact⟩ := Except.mapM_getElem? hmap hi
    rw [show t' = t from Option.some.inj (ht'.symm.trans ht),
      exactNameTransaction_eq_ok_iff hvalid hruntime hfull] at hexact
    obtain ⟨actions, rendezvous, -, hrendezvous, rfl⟩ := hexact
    obtain ⟨hcarries, hquiet⟩ := (hselect rendezvous).1 hoperation
    refine ⟨hcarries, ?_, rendezvous, hrendezvous, hquiet⟩
    intro other hother
    exact (exists_exactNameTransaction_iff hvalid hruntime hrendezvous other).1
      (Except.exists_mapM_eq_ok_iff.1 ⟨transactions, hmap⟩ other hother)
  · rintro ⟨hcarries, hcanonical, rendezvous, hrendezvous, hquiet⟩
    have hall : ∀ other ∈ block.transactions,
        ∃ t, exactNameTransaction runtime deployment network name other = .ok t :=
      fun other hother ↦ (exists_exactNameTransaction_iff hvalid hruntime hrendezvous other).2
        (hcanonical other hother)
    obtain ⟨transactions, hmap⟩ := Except.exists_mapM_eq_ok_iff.2 hall
    obtain ⟨t, ht, hexact⟩ := Except.mapM_getElem? hmap hi
    refine ⟨_, t, (hblock _).2 ⟨transactions, hmap, rfl⟩, ht, ?_⟩
    obtain ⟨actions, found, -, hfound, rfl⟩ :=
      (exactNameTransaction_eq_ok_iff hvalid hruntime hfull).1 hexact
    rw [show found = rendezvous from Except.ok.inj (hfound.symm.trans hrendezvous)]
    exact (hselect rendezvous).2 ⟨hcarries, hquiet⟩

/-- **On demand and in replay.** A COMMIT fetched on demand is the COMMIT of forward replay exactly
when the transaction carries none, or forward replay sees nothing else that concerns it. -/
theorem commit_on_demand_iff (hvalid : deployment.validate = .ok deployment)
    (hruntime : deployment.coreRuntimeId = Core.coreRuntimeId runtime) {block : CoreBlockContext}
    {i : ℕ} {transaction : CoreTransactionContext} (hi : block.transactions[i]? = some transaction)
    {full : Core.FullTransaction} (hfull : transaction.validatedFullTransaction = some full) :
    (∀ commitment, inspectValidatedCommitTransaction full runtime deployment network =
        .ok (.operation (.commit commitment)) ↔
      ∃ b t, inspectExactNameBlock block runtime deployment network name = .ok b ∧
        b.transactions[i]? = some t ∧ t.operation = some (.commit commitment)) ↔
      (∀ commitment, ¬ CarriesCommit full runtime deployment network commitment) ∨
        Unambiguous block full deployment name := by
  simp only [inspectValidatedCommitTransaction_eq_commit_iff hvalid hruntime,
    inspectExactNameBlock_commit_iff hvalid hruntime hi hfull]
  by_cases hunambiguous : Unambiguous block full deployment name
  · simp [hunambiguous]
  · simp [hunambiguous]

end OnDemand

/-! ### A COMMIT with a second candidate -/

namespace Sample

/-- A block of one transaction with the given bulletin. -/
def blockOf (bulletin : Bulletin) : CoreBlockContext where
  height := 0
  blockHash := Vector.replicate 32 5
  prevBlockHash := Vector.replicate 32 4
  transactions := [⟨0, Vector.replicate 32 10,
    ⟨[(field 1).bytes], [(field 2).bytes]⟩, some bulletin⟩]
  treeSize := 1

theorem carriesCommit (bulletin : Bulletin) :
    CarriesCommit (bulletin : Core.FullTransaction) runtime deployment .regtest commitment := by
  refine ⟨fun frame hframe ↦ ?_, commitEnvelope, Vector.replicate 32 0, rfl, ?_, rfl, ?_⟩
  · have hzero : frame ∈ [RoutedFrame.mk 0] := hframe
    rw [List.mem_singleton.1 hzero]
  · decide +kernel
  · decide +kernel

/-- The name `alice` has a rendezvous. -/
theorem nameRendezvous_alice :
    ∃ receiver, nameRendezvous deployment alice = .ok
      (some receiver : Option (Vector UInt8 43)) := by
  have hid : deployment.deploymentId = .ok (Vector.replicate 32 0) := by decide +kernel
  have hderived : (alice.id.toOption.bind fun nameId ↦
      (NameRoute.derive (Vector.replicate 32 0) nameId).toOption).isSome = true := by decide +kernel
  rcases halice : alice.id with e | nameId
  · rw [halice] at hderived
    exact absurd hderived Bool.false_ne_true
  rcases hroute : NameRoute.derive (Vector.replicate 32 0) nameId with e | route
  · rw [halice, Except.toOption, Option.bind_some, hroute] at hderived
    exact absurd hderived Bool.false_ne_true
  · simp only [nameRendezvous, hid, halice, hroute]
    exact ⟨route.receiver, rfl⟩

/-- Evidence admits the COMMIT of the ambiguous transaction, and forward replay for `alice` does
not: its carrier on the route of `alice` does not parse. -/
theorem ambiguous_commit_diverges :
    deployment.validate = .ok deployment ∧
      deployment.coreRuntimeId = Core.coreRuntimeId (runtime : Core.Runtime) ∧
      ∃ transaction, (blockOf .ambiguous).transactions[0]? = some transaction ∧
        transaction.validatedFullTransaction = some Bulletin.ambiguous ∧
        ¬ ∀ commitment, inspectValidatedCommitTransaction Bulletin.ambiguous runtime deployment
            .regtest = .ok (.operation (.commit commitment)) ↔
          ∃ b t, inspectExactNameBlock (blockOf .ambiguous) runtime deployment
            .regtest alice = .ok b ∧
            b.transactions[0]? = some t ∧ t.operation = some (.commit commitment) := by
  refine ⟨deployment_valid, rfl, _, rfl, rfl, fun h ↦ ?_⟩
  have hcommit := (h commitment).1
    ((inspectValidatedCommitTransaction_eq_commit_iff deployment_valid rfl).2
      (carriesCommit .ambiguous))
  obtain ⟨-, -, rendezvous, hrendezvous, hquiet⟩ :=
    (inspectExactNameBlock_commit_iff deployment_valid rfl rfl rfl).1 hcommit
  obtain ⟨receiver, halice⟩ := nameRendezvous_alice
  rw [← Except.ok.inj (halice.symm.trans hrendezvous)] at hquiet
  obtain ⟨-, hmessage | hmessage | ⟨envelope, hmessage, -⟩⟩ := hquiet
  · exact absurd hmessage (by simp [Core.inspectTransactionAtRendezvous])
  · exact absurd hmessage (by simp [Core.inspectTransactionAtRendezvous])
  · exact absurd hmessage (by simp [Core.inspectTransactionAtRendezvous])

/-- On the transaction with nothing else, evidence and forward replay agree. -/
theorem commit_on_demand_iff_commit :
    (∀ found, inspectValidatedCommitTransaction (Bulletin.commit : Core.FullTransaction)
          (runtime : Core.Runtime) deployment .regtest = .ok (.operation (.commit found)) ↔
        ∃ b t, inspectExactNameBlock (blockOf .commit) (runtime : Core.Runtime) deployment .regtest
          alice = .ok b ∧ b.transactions[0]? = some t ∧ t.operation = some (.commit found)) ↔
      (∀ found, ¬ CarriesCommit (Bulletin.commit : Core.FullTransaction) (runtime : Core.Runtime)
          deployment .regtest found) ∨
        Unambiguous (blockOf .commit) (Bulletin.commit : Core.FullTransaction) deployment alice :=
  commit_on_demand_iff deployment_valid rfl rfl rfl

end Sample

end CoppiceNames
