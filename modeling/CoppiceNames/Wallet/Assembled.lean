import CoppiceNames.Wallet.Acceptance
import CoppiceNames.Wallet.Plans
import CoppiceNames.Wallet.RoleChecks

/-!
# What an assembled transaction carries

The steps of `builder.rs` one after the other. Whatever the roles do, a transaction that comes out
of the last step carries the planned operation, and no step panics (`assembled_carries_plan`).

The plans of `replacement.rs` are made of a prepared REVEAL or REFRESH, whose proof is about one
nullifier and one commitment. These are the nullifier and the commitment of the designated action
that a reducer reads off the assembled transaction (`prepared_pair_mined`): for the commitment
because the steps keep it, for the nullifier because the successor note was derived from it and the
first step compares the two.
-/

namespace CoppiceNames

open BuilderError

section Assembled

variable [Orchard] [Assembly]

/-! ### All steps -/

/-- What the Ironwood bundle of an assembled transaction has from the plan: the actions that the
builder built, in its order, with the designated pair once and in its place; the planned value
balance, the anchor of the witnesses, and a proof. -/
structure AuthorizedBundle.Of (ironwood : AuthorizedBundle) (plan : NamesIronwoodPlan)
    (rng : Assembly.Rng) (rest : NamesAssemblyPlan) : Prop where
  built : ∃ builder bundle metadata, requestActions plan = .ok builder ∧
    Assembly.buildForPczt builder rng ⟨0, 0, plan.designatedActionIndex⟩ = .ok (bundle, metadata) ∧
    ironwood.actions = Assembly.actionPairs bundle ∧
    Assembly.valueBalance builder = .ok ironwood.valueBalance
  actionCount : Assembly.numActions (1 + plan.fundingSpends.length)
    (1 + plan.carrierOutputs.length + plan.changeOutputs.length) = .ok ironwood.actions.length
  designated : ironwood.actions[plan.designatedActionIndex]? =
    some (Orchard.noteNullifier plan.designatedSpend plan.designatedFvk,
      Orchard.noteCommitment plan.successorNote)
  unique : ironwood.actions.count (Orchard.noteNullifier plan.designatedSpend plan.designatedFvk,
    Orchard.noteCommitment plan.successorNote) = 1
  anchor : ironwood.anchor = rest.witnesses.anchor
  proof : ironwood.proof ≠ []
  spends : ∀ spend ∈ rest.witnesses.spends, spend.nullifier ∈ ironwood.actions.map Prod.fst

/-- What an assembled transaction carries, and what it took: bonds of exactly one ZEC, carriers
without value, and as many witnesses and keys as the plan has real spends, under distinct nullifiers
of its actions. Which actions these are is up to the Creator. -/
structure NamesExtractedTransaction.Of (extracted : NamesExtractedTransaction)
    (plan : NamesIronwoodPlan) (rng : Assembly.Rng) (rest : NamesAssemblyPlan) : Prop where
  bonds : Orchard.noteValue plan.designatedSpend = bondZatoshis ∧
    Orchard.noteValue plan.successorNote = bondZatoshis
  carriers : ∀ carrier ∈ plan.carrierOutputs, carrier.value = 0
  rho : Assembly.noteRho plan.successorNote =
    Orchard.noteNullifier plan.designatedSpend plan.designatedFvk
  branch : Assembly.isNu6_3 rest.consensusBranchId = true
  expiry : plan.operationHeight ≤ rest.expiryHeight
  isV6 : Assembly.isV6 extracted.transaction = true
  bundle : ∃ ironwood, Assembly.ironwoodBundle extracted.transaction = some ironwood ∧
    ironwood.Of plan rng rest
  witnesses : rest.witnesses.spends.length = 1 + plan.fundingSpends.length
  nullifiers : (rest.witnesses.spends.map NamesIronwoodWitness.nullifier).Nodup
  keys : (rest.signing.spends.map NamesIronwoodSigningKey.nullifier).Perm
    (rest.witnesses.spends.map NamesIronwoodWitness.nullifier)

/-- **All steps**, whatever the roles do. -/
theorem ensures_assembleNamesTransaction (plan : NamesIronwoodPlan) (rng : Assembly.Rng)
    (rest : NamesAssemblyPlan) :
    (assembleNamesTransaction plan rng rest).Ensures Reported fun extracted ↦
      extracted.Of plan rng rest := by
  refine (ensures_buildNamesBundle plan rng).bind fun ironwood hironwood ↦ ?_
  refine (ensures_buildNamesPczt _).bind fun built hbuilt ↦ ?_
  refine (ensures_finalizeNamesPcztIo built).bind fun finalized hfinalized ↦ ?_
  obtain ⟨hmetadata, hfinalizes⟩ := hfinalized
  have hshown := hfinalizes _ hbuilt.shows_pairs
  rw [← hmetadata] at hshown
  refine (ensures_installNamesIronwoodWitnesses finalized rest.witnesses).bind
    fun witnessed hwitnessed ↦ ?_
  obtain ⟨hmetadata₁, hanchor₁, hinstalls⟩ := hwitnessed
  obtain ⟨hshown₁, hindices⟩ := hinstalls _ hshown
  rw [← hmetadata₁] at hshown₁
  refine (ensures_proveNamesIronwoodPczt witnessed rest.provingKey
    fun entry hentry ↦ hindices.lt hentry).bind fun proved hproved ↦ ?_
  obtain ⟨hmetadata₂, hanchor₂, hindices₂, hproves⟩ := hproved
  have hshown₂ := hproves _ hshown₁
  rw [← hmetadata₂] at hshown₂
  refine (ensures_signNamesIronwoodPczt proved rest.signing).bind fun signed hsigned ↦ ?_
  obtain ⟨hmetadata₃, hanchor₃, hnodup, hkeys, hsigns⟩ := hsigned
  have hshown₃ := hsigns _ hshown₂
  rw [← hmetadata₃] at hshown₃
  refine (ensures_extractNamesTransaction signed).mono fun extracted hextracted ↦ ?_
  obtain ⟨-, hcarries⟩ := hextracted
  obtain ⟨hversion, -, authorized, hauthorized, hactions, hbalance, hanchor, hproof⟩ :=
    hcarries _ hshown₃
  -- the metadata of the last step is that of the built PCZT
  have hsame : signed.toPcztMetadata = built.toPcztMetadata :=
    hmetadata₃.trans (hmetadata₂.trans (hmetadata₁.trans hmetadata))
  obtain ⟨builder, metadata, hrequests, hvalue, hbundle⟩ := hironwood.builder
  have hdesignated := hbuilt.shows_pairs.designated_mem
  rw [hbuilt.designatedActionIndex, hbuilt.designatedNullifier, hbuilt.designatedCommitment,
    hironwood.designatedActionIndex, hironwood.designatedNullifier,
    hironwood.designatedCommitment] at hdesignated
  have hnullifiers := hindices.nullifiers
  rw [hindices₂] at hnodup hkeys
  rw [hnullifiers] at hnodup hkeys
  refine
    { bonds := hironwood.bonds
      carriers := hironwood.carriers
      rho := hironwood.rho
      branch := hbuilt.branch
      expiry := hironwood.operationHeight ▸ hbuilt.expiry
      isV6 := hversion
      bundle := ⟨authorized, hauthorized,
        { built := ⟨builder, ironwood.bundle, metadata, hrequests, hbundle, hactions, ?_⟩
          actionCount := ?_
          designated := hactions ▸ hdesignated.1
          unique := hactions ▸ hdesignated.2
          anchor := ?_
          proof := hproof
          spends := ?_ }⟩
      witnesses := ?_
      nullifiers := hnodup
      keys := hkeys }
  · rw [hbalance, hsame, hbuilt.ironwoodValueBalance]
    exact hvalue
  · rw [hactions, hbuilt.shows_pairs.length_layout, hbuilt.actionCount]
    exact hironwood.actionCount
  · rw [hanchor, hanchor₃, hanchor₂, hanchor₁]
  · intro spend hspend
    have hlisted : spend.nullifier ∈ witnessed.witnessedActionIndices.map Prod.fst := by
      rw [hnullifiers]
      exact List.mem_map_of_mem hspend
    obtain ⟨entry, hentry, heq⟩ := List.mem_map.1 hlisted
    rw [hactions, hshown₁.nullifiers, ← heq]
    exact List.mem_of_getElem? (hindices.entries entry hentry)
  · have hlength := congrArg List.length hnullifiers
    rw [List.length_map, List.length_map, hindices.length_eq] at hlength
    rw [← hlength, congrArg PcztMetadata.realSpendCount hmetadata, hbuilt.realSpendCount]
    exact hironwood.realSpendCount

/-- **An assembled transaction carries its plan**, whatever the roles do: the actions that the
builder built, in order, with the designated pair exactly once and in its place, the value balance
and the anchor. As many witnesses and keys as there are real spends were used, under distinct
nullifiers of the actions. No step panics. -/
theorem assembled_carries_plan (plan : NamesIronwoodPlan) (rng : Assembly.Rng)
    (rest : NamesAssemblyPlan) :
    assembleNamesTransaction plan rng rest ≠ .error .panicked ∧
      ∀ extracted, assembleNamesTransaction plan rng rest = .ok extracted →
        extracted.Of plan rng rest := by
  have h := ensures_assembleNamesTransaction plan rng rest
  exact ⟨fun hpanic ↦ h.of_error hpanic rfl, fun extracted hextracted ↦ h.of_ok hextracted⟩

end Assembled

/-! ### What a reducer reads -/

/-- The effects of an assembled transaction, as Core passes them on. -/
def AuthorizedBundle.effects (ironwood : AuthorizedBundle) : IronwoodEffects where
  nullifiers := ironwood.actions.map Prod.fst
  commitments := ironwood.actions.map Prod.snd

/-- The bytes that an action was read from. -/
def Action.pair (action : Action) : Bytes32 × Bytes32 :=
  (action.nullifier.bytes, action.commitment.bytes)

section Reading

variable [Core] {ironwood : AuthorizedBundle} {actions : List Action}

theorem coreAction_eq_ok {entry : (Bytes32 × Bytes32) × ℕ} {action : Action}
    (h : coreAction entry = .ok action) :
    action.pair = entry.1 ∧ action.actionIndex.val = entry.2 := by
  rw [coreAction] at h
  split at h
  · rename_i index nullifier commitment hindex hnullifier hcommitment
    obtain rfl := Except.ok.inj h
    exact ⟨Prod.ext (FieldElement.fromBytes_eq_ok hnullifier)
      (FieldElement.fromBytes_eq_ok hcommitment), U32.ofUsize_eq_some_iff.1 hindex⟩
  · exact absurd h (by simp)

/-- The actions that are read are those of the bundle. -/
theorem pairs_of_coreActions (h : coreActions ironwood.effects = .ok actions) :
    actions.map Action.pair = ironwood.actions ∧ ∀ (i : ℕ) (pair : Bytes32 × Bytes32),
      ironwood.actions[i]? = some pair → ∃ action, actions[i]? = some action ∧
        action.pair = pair ∧ action.actionIndex.val = i := by
  rw [coreActions] at h
  split at h
  · exact absurd h (by simp)
  rw [show ironwood.effects.nullifiers.zip ironwood.effects.commitments = ironwood.actions from
    (List.zip_of_prod rfl rfl).symm] at h
  constructor
  · rw [← List.zipIdx_map_fst 0 ironwood.actions, ← List.forall₂_eq_eq_eq,
      List.forall₂_map_left_iff, List.forall₂_map_right_iff]
    exact (Except.mapM_eq_ok_iff.1 h).flip.imp fun _ _ hentry ↦ (coreAction_eq_ok hentry).1
  · intro i pair hpair
    have hentry : ironwood.actions.zipIdx[i]? = some (pair, i) := by
      rw [List.getElem?_zipIdx, hpair, Option.map_some, Nat.zero_add]
    obtain ⟨action, haction, hentry⟩ := Except.mapM_getElem? h hentry
    exact ⟨action, haction, coreAction_eq_ok hentry⟩

end Reading

/-! ### Prepared operations -/

section Prepared

variable [Primitives] [Core] [KeyedHash] [Orchard] [Circuits] [Assembly]
  {ironwood : AuthorizedBundle}

omit [KeyedHash] [Circuits] in
/-- The route and the designated action of a publication that has them. -/
def PreparedPublication.designated (publication : PreparedPublication) :
    Option (NameRoute × U32) :=
  match publication.route, publication.operation with
  | .name route, .reveal op => some (route, op.actionIndex)
  | .name route, .refresh op => some (route, op.actionIndex)
  | _, _ => none

/-- `replacement_ironwood_plan`. -/
def replacementIronwoodPlan (publication : PreparedPublication) (successorNote : Note)
    (designatedFvk : FullViewingKey) (designatedSpend : Note) (fundingSpends : List FundingSpend)
    (changeOutputs : List ChangeOutput) (operationHeight : U32) :
    Except BuilderError NamesIronwoodPlan := do
  let designated ← BuilderError.required
    "only name-routed REVEAL/REFRESH has a designated Ironwood plan" publication.designated
  let recipient ← BuilderError.required "derived name route receiver is invalid"
    (Assembly.addressFromRaw designated.1.receiver)
  return { designatedFvk := designatedFvk
           designatedSpend := designatedSpend
           successorNote := successorNote
           successorOvk := none
           successorMemo := .replicate 512 0
           carrierOutputs := publication.frames.map fun memo ↦
             ⟨recipient, publication.carrierValueZatoshis, memo⟩
           fundingSpends := fundingSpends
           changeOutputs := changeOutputs
           designatedActionIndex := designated.2.val
           operationHeight := operationHeight }

/-- `PreparedReveal::ironwood_plan`. -/
def PreparedReveal.ironwoodPlan (prepared : PreparedReveal) (designatedFvk : FullViewingKey)
    (designatedSpend : Note) (fundingSpends : List FundingSpend)
    (changeOutputs : List ChangeOutput) : Except BuilderError NamesIronwoodPlan :=
  replacementIronwoodPlan prepared.publication prepared.successorNote designatedFvk designatedSpend
    fundingSpends changeOutputs prepared.operationHeight

/-- `PreparedRefresh::ironwood_plan`. -/
def PreparedRefresh.ironwoodPlan (prepared : PreparedRefresh) (designatedFvk : FullViewingKey)
    (designatedSpend : Note) (fundingSpends : List FundingSpend)
    (changeOutputs : List ChangeOutput) : Except BuilderError NamesIronwoodPlan :=
  replacementIronwoodPlan prepared.publication prepared.successorNote designatedFvk designatedSpend
    fundingSpends changeOutputs prepared.operationHeight

/-- A note that is made of a decoded `rho` has the bytes that were decoded. -/
def RhoKept : Prop :=
  ∀ (address : Orchard.Address) (value : ℕ) (rho : Orchard.Rho) (seed : Orchard.RandomSeed)
    (note : Note) (bytes : Bytes32), Orchard.rhoFromBytes bytes = some rho →
    Orchard.noteFromParts address value rho seed = some note → Assembly.noteRho note = bytes

omit [Core] [Circuits] in
/-- The `rho` of a bond note is the nullifier it was derived with. -/
theorem noteRho_of_deriveBondNote (hrho : RhoKept) {spendingKey : SpendingKey}
    {deploymentId : Bytes32} {operationTag : UInt8} {reference : List UInt8} {targetEpoch : U32}
    {ua : CanonicalUa} {actionIndex : U32} {actionNullifier : FieldElement} {note : Note}
    (h : (deriveBondNote spendingKey deploymentId operationTag reference targetEpoch ua actionIndex
      actionNullifier).result = .ok note) : Assembly.noteRho note = actionNullifier.bytes := by
  obtain ⟨rho, seed, hbytes, hnote⟩ := isBondNote_of_deriveBondNote h
  exact hrho _ _ rho seed _ _ hbytes hnote

/-- What ties a successor note to the statement that was proved with it. -/
structure Ties (successorNote : Note) (actionNullifier actionCommitment : FieldElement) : Prop where
  nullifier : Assembly.noteRho successorNote = actionNullifier.bytes
  commitment : Orchard.noteCommitment successorNote = actionCommitment.bytes

theorem PreparedReveal.ties (hrho : RhoKept) {inputs : RevealInputs} {rng : Circuits.Rng}
    {prepared : PreparedReveal} (h : prepareReveal inputs rng = .ok prepared) :
    Ties prepared.successorNote prepared.statement.actionNullifier
        prepared.statement.actionCommitment ∧
      ∃ op, prepared.publication.operation = .reveal op ∧
        op.actionIndex = inputs.designatedActionIndex := by
  simp only [prepareReveal, Except.bind_eq_ok_iff, during_eq_ok_iff,
    PreparationError.ensure_eq_ok_iff] at h
  obtain ⟨validated, -, id, -, nameId, -, -, -, -, -, -, -, epoch, -, spendingKey, -, opening, -,
    actionNullifier, -, successorNote, hnote, actionCommitment, hcommitment, successorFutureNf, -,
    proof, -, publication, hpublication, -, -, hprepared⟩ := h
  obtain rfl := Except.ok.inj hprepared
  exact ⟨⟨noteRho_of_deriveBondNote hrho hnote, (FieldElement.fromBytes_eq_ok hcommitment).symm⟩,
    _, operation_of_preparePublication hpublication, rfl⟩

theorem PreparedRefresh.ties (hrho : RhoKept) {inputs : RefreshInputs} {rng : Circuits.Rng}
    {prepared : PreparedRefresh} (h : prepareRefresh inputs rng = .ok prepared) :
    Ties prepared.successorNote prepared.statement.actionNullifier
        prepared.statement.actionCommitment ∧
      prepared.statement.actionNullifier = inputs.predecessor.futureNf ∧
      ∃ op, prepared.publication.operation = .refresh op ∧
        op.actionIndex = inputs.designatedActionIndex := by
  simp only [prepareRefresh, Except.bind_eq_ok_iff, during_eq_ok_iff,
    PreparationError.ensure_eq_ok_iff, decide_eq_true_eq] at h
  obtain ⟨validated, -, id, -, nameId, -, -, -, -, -, -, -, epoch, -, -, -, -, -, spendingKey, -,
    predecessorCommitment, -, predecessorFutureNf, -, -, hmatches, successorNote, hnote,
    actionCommitment, hcommitment, successorFutureNf, -, proof, -, publication, hpublication, -, -,
    hprepared⟩ := h
  obtain rfl := Except.ok.inj hprepared
  exact ⟨⟨noteRho_of_deriveBondNote hrho hnote, (FieldElement.fromBytes_eq_ok hcommitment).symm⟩,
    hmatches.2, _, operation_of_preparePublication hpublication, rfl⟩

omit [Core] [KeyedHash] [Orchard] [Circuits] [Assembly] in
/-- The designated action of a publication is the one that its operation names. -/
theorem PreparedPublication.designated_snd {publication : PreparedPublication}
    {designated : NameRoute × U32} (h : publication.designated = some designated) {index : U32}
    (hop : (∃ op, publication.operation = .reveal op ∧ op.actionIndex = index) ∨
      ∃ op, publication.operation = .refresh op ∧ op.actionIndex = index) :
    designated.2 = index := by
  rw [PreparedPublication.designated] at h
  split at h
  · rename_i route op hroute hreveal
    rcases hop with ⟨op', hop', rfl⟩ | ⟨op', hop', rfl⟩
    · rw [hop'] at hreveal
      rw [← Option.some.inj h, ← Operation.reveal.inj hreveal]
    · rw [hop'] at hreveal
      cases hreveal
  · rename_i route op hroute hrefresh
    rcases hop with ⟨op', hop', rfl⟩ | ⟨op', hop', rfl⟩
    · rw [hop'] at hrefresh
      cases hrefresh
    · rw [hop'] at hrefresh
      rw [← Option.some.inj h, ← Operation.refresh.inj hrefresh]
  · exact absurd h (by simp)

/-- The transaction has the pair that was proved exactly once, in the action that the operation
names. -/
structure PairMined (ironwood : AuthorizedBundle) (index : U32)
    (actionNullifier actionCommitment : FieldElement) : Prop where
  designated : ∀ actions, coreActions ironwood.effects = .ok actions →
    actions[index.val]? = some ⟨index, actionNullifier, actionCommitment⟩
  unique : ∀ actions, coreActions ironwood.effects = .ok actions →
    (actions.filter fun action ↦ action.nullifier = actionNullifier ∧
      action.commitment = actionCommitment).length = 1

omit [Primitives] [KeyedHash] [Circuits] in
theorem pairMined_of_ties {plan : NamesIronwoodPlan} {rng : Assembly.Rng} {rest : NamesAssemblyPlan}
    {extracted : NamesExtractedTransaction} (hof : extracted.Of plan rng rest)
    (hironwood : Assembly.ironwoodBundle extracted.transaction = some ironwood)
    {index : U32} (hindex : plan.designatedActionIndex = index.val)
    {actionNullifier actionCommitment : FieldElement}
    (hties : Ties plan.successorNote actionNullifier actionCommitment) :
    PairMined ironwood index actionNullifier actionCommitment := by
  obtain ⟨found, hfound, hbundle⟩ := hof.bundle
  obtain rfl : found = ironwood := Option.some.inj (hfound.symm.trans hironwood)
  have hpair : (Orchard.noteNullifier plan.designatedSpend plan.designatedFvk,
      Orchard.noteCommitment plan.successorNote) =
        (actionNullifier.bytes, actionCommitment.bytes) := by
    rw [← hof.rho, hties.nullifier, hties.commitment]
  have hdesignated := hbundle.designated
  have hunique := hbundle.unique
  rw [hpair] at hunique
  rw [hindex, hpair] at hdesignated
  refine ⟨fun actions hactions ↦ ?_, fun actions hactions ↦ ?_⟩
  · obtain ⟨action, haction, hsame, hposition⟩ :=
      (pairs_of_coreActions hactions).2 index.val _ hdesignated
    obtain ⟨hnullifier, hcommitment⟩ := Prod.mk.inj hsame
    rw [haction, Option.some_inj]
    rcases action with ⟨actionIndex, nullifier, commitment⟩
    rw [show actionIndex = index from Fin.ext hposition,
      show nullifier = actionNullifier from FieldElement.ext hnullifier,
      show commitment = actionCommitment from FieldElement.ext hcommitment]
  · rw [← (pairs_of_coreActions hactions).1, List.count, List.countP_map] at hunique
    rw [← List.countP_eq_length_filter, ← hunique]
    refine List.countP_congr fun action _ ↦ ?_
    simp [Action.pair, Prod.ext_iff, FieldElement.ext_iff]

omit [KeyedHash] [Circuits] in
/-- What a replacement plan has from its publication. -/
theorem replacementIronwoodPlan_eq_ok {publication : PreparedPublication}
    {successorNote designatedSpend : Note} {designatedFvk : FullViewingKey}
    {fundingSpends : List FundingSpend} {changeOutputs : List ChangeOutput} {operationHeight : U32}
    {plan : NamesIronwoodPlan}
    (h : replacementIronwoodPlan publication successorNote designatedFvk designatedSpend
      fundingSpends changeOutputs operationHeight = .ok plan) :
    plan.successorNote = successorNote ∧ plan.operationHeight = operationHeight ∧
      plan.carrierOutputs.map CarrierOutput.memo = publication.frames ∧
      ∃ designated, publication.designated = some designated ∧
        plan.designatedActionIndex = designated.2.val := by
  obtain ⟨designated, hdesignated, h⟩ := Except.bind_eq_ok_iff.1 h
  obtain ⟨recipient, -, h⟩ := Except.bind_eq_ok_iff.1 h
  obtain rfl := Except.ok.inj h
  refine ⟨rfl, rfl, ?_, designated, ?_, rfl⟩
  · rw [List.map_map]
    exact List.map_id _
  · rcases hfound : publication.designated with - | found
    · rw [hfound] at hdesignated
      exact absurd hdesignated (by simp [BuilderError.required])
    · rw [hfound] at hdesignated
      rw [Except.ok.inj hdesignated]

/-- **The pair that was proved is the pair that is mined.** A REVEAL or REFRESH is prepared, planned
and assembled, with any designated input that the first step lets pass and any roles. A reducer that
reads the actions of the transaction finds, exactly once and in the action that the published
operation names, the nullifier and the commitment of the statement that was proved. -/
theorem prepared_pair_mined (hrho : RhoKept) (designatedFvk : FullViewingKey)
    (designatedSpend : Note) (fundingSpends : List FundingSpend)
    (changeOutputs : List ChangeOutput) (plan : NamesIronwoodPlan) (rng : Assembly.Rng)
    (rest : NamesAssemblyPlan) (extracted : NamesExtractedTransaction)
    (hextracted : assembleNamesTransaction plan rng rest = .ok extracted)
    (ironwood : AuthorizedBundle)
    (hironwood : Assembly.ironwoodBundle extracted.transaction = some ironwood) :
    (∀ (inputs : RevealInputs) (proofRng : Circuits.Rng) (prepared : PreparedReveal),
      prepareReveal inputs proofRng = .ok prepared →
      prepared.ironwoodPlan designatedFvk designatedSpend fundingSpends changeOutputs = .ok plan →
      ∃ op, prepared.publication.operation = .reveal op ∧
        op.actionIndex = inputs.designatedActionIndex ∧
        PairMined ironwood op.actionIndex prepared.statement.actionNullifier
          prepared.statement.actionCommitment) ∧
    ∀ (inputs : RefreshInputs) (proofRng : Circuits.Rng) (prepared : PreparedRefresh),
      prepareRefresh inputs proofRng = .ok prepared →
      prepared.ironwoodPlan designatedFvk designatedSpend fundingSpends changeOutputs = .ok plan →
      ∃ op, prepared.publication.operation = .refresh op ∧
        op.actionIndex = inputs.designatedActionIndex ∧
        PairMined ironwood op.actionIndex inputs.predecessor.futureNf
          prepared.statement.actionCommitment := by
  have hof : extracted.Of plan rng rest :=
    (ensures_assembleNamesTransaction plan rng rest).of_ok hextracted
  refine ⟨fun inputs proofRng prepared hprepared hplan ↦ ?_,
    fun inputs proofRng prepared hprepared hplan ↦ ?_⟩
  · obtain ⟨hties, op, hop, hsame⟩ := PreparedReveal.ties hrho hprepared
    obtain ⟨hnote, -, -, designated, hdesignated, hindex⟩ := replacementIronwoodPlan_eq_ok hplan
    rw [PreparedPublication.designated_snd hdesignated (.inl ⟨op, hop, rfl⟩)] at hindex
    exact ⟨op, hop, hsame, pairMined_of_ties hof hironwood hindex (hnote ▸ hties)⟩
  · obtain ⟨hties, hnullifier, op, hop, hsame⟩ := PreparedRefresh.ties hrho hprepared
    obtain ⟨hnote, -, -, designated, hdesignated, hindex⟩ := replacementIronwoodPlan_eq_ok hplan
    rw [PreparedPublication.designated_snd hdesignated (.inr ⟨op, hop, rfl⟩)] at hindex
    rw [hnullifier] at hties
    exact ⟨op, hop, hsame, pairMined_of_ties hof hironwood hindex (hnote ▸ hties)⟩

end Prepared

/-! ### A funded REVEAL and REFRESH, from their preparation to their transactions -/

namespace Sample.Whole

/-- The encoding of a number. -/
def number (n : ℕ) : Bytes32 :=
  PallasBase.toRepr (.ofU64 n)

/-- Notes that are their `rho`: the commitment and the nullifier are numbers that are read off its
first byte. -/
scoped instance orchard : Orchard where
  SpendingKey := Bytes32
  FullViewingKey := Bytes32
  Address := Unit
  Rho := Bytes32
  RandomSeed := Bytes32
  Note := Bytes32
  spendingKeyFromBytes := some
  spendingKeyToBytes key := key
  fullViewingKey key := key
  addressAtZero _ := ()
  rhoFromBytes := some
  randomSeedFromBytes bytes _ := some bytes
  noteFromParts _ _ rho _ := some rho
  noteValue _ := bondZatoshis
  noteCommitment note := number (2 * note.head.toNat)
  noteNullifier note _ := number (2 * note.head.toNat + 1)
  ownerCommitment _ := number 1
  fromUniformBytes _ := 1
  poseidonPair _ _ := 1

/-- A proof is the beginning of the digest. -/
scoped instance circuits : Circuits where
  CommitSecret := Bytes32
  StatementDigest := Bytes32
  Rng := Unit
  commitSecretFromBytes := some
  statementDigestFromBytes := some
  proveReveal _ _ _ _ digest _ := some (digest.toList.take 3)
  proveRefresh _ _ _ _ digest _ := some (digest.toList.take 2)
  verifyReveal proof digest := proof == digest.toList.take 3
  verifyRefresh proof digest := proof == digest.toList.take 2

/-- The nullifiers and the commitments requested so far. -/
structure Requests where
  spends : List Bytes32
  outputs : List Bytes32

/-- The requested pairs in order, with padding spends behind the real ones. -/
def Requests.pairs (requests : Requests) : List (Bytes32 × Bytes32) :=
  (requests.spends ++ List.replicate (requests.outputs.length - requests.spends.length)
    (number 101)).zip requests.outputs

/-- The actions of a bundle whose first spends are real. -/
def pcztActions (real : ℕ) (pairs : List (Bytes32 × Bytes32)) : List PcztAction :=
  pairs.zipIdx.map fun entry ↦
    { nullifier := entry.1.1
      cmx := some entry.1.2
      witness := if entry.2 < real then none else some (pathAt 0).stored
      spendAuthSig := none }

/-- Roles that keep what they are given, for transactions of two real spends. -/
scoped instance assembly : Assembly where
  toRoles := roles
  OutgoingViewingKey := Unit
  Builder := Requests
  Rng := Unit
  Bundle := List (Bytes32 × Bytes32)
  TransactionParameters := Unit
  BranchId := Unit
  ProvingKey := Unit
  ConsensusTransaction := AuthorizedBundle
  isNu6_3 _ := true
  noteRho note := note
  addressFromRaw _ := some ()
  numActions spends outputs := .ok (max spends outputs)
  newBuilder := .ok ⟨[], []⟩
  addSpendUnwitnessed builder fvk note :=
    .ok ⟨builder.spends ++ [Orchard.noteNullifier note fvk], builder.outputs⟩
  addOutputNote builder _ note _ :=
    .ok ⟨builder.spends, builder.outputs ++ [Orchard.noteCommitment note]⟩
  addOutput builder _ _ _ _ := .ok ⟨builder.spends, builder.outputs ++ [number 102]⟩
  addChangeOutput builder _ _ _ _ _ := .ok ⟨builder.spends, builder.outputs ++ [number 103]⟩
  valueBalance _ := .ok 0
  buildForPczt builder _ _ := .ok (builder.pairs, ⟨some, some⟩)
  actionPairs pairs := pairs
  buildFromParts _ _ _ _ pairs := some
    { actions := pcztActions 2 pairs
      valueSum := (0, false)
      anchor := none
      zkproof := none
      inputsModifiable := true
      outputsModifiable := true
      shieldedModifiable := true }
  finalizeIo pczt := .ok
    { pczt with
      actions := pczt.actions.map fun action ↦
        if action.witness.isSome then { action with spendAuthSig := some (.replicate 64 0) }
        else action
      inputsModifiable := false
      outputsModifiable := false
      shieldedModifiable := false }
  createIronwoodProof pczt _ := .ok { pczt with zkproof := some [1] }
  extract pczt := .ok
    { actions := pczt.actions.map fun action ↦ (action.nullifier, action.cmx.getD (number 0))
      valueBalance := 0
      anchor := 5
      proof := pczt.zkproof.getD [] }
  isV6 _ := true
  txid _ := Vector.replicate 32 11
  ironwoodBundle := some
  writeTransaction _ := .ok []

theorem rhoKept : RhoKept := by
  intro address value rho seed note bytes hrho hnote
  obtain rfl := Option.some.inj hrho
  exact (Option.some.inj hnote).symm

/-- What the wallet knows before the REVEAL. -/
def revealInputs : RevealInputs where
  walletSeed := walletSeed
  deployment := deployment
  name := alice
  commitRef := ⟨0, 0, Vector.replicate 32 10⟩
  ua := ua
  operationHeight := 1
  designatedActionIndex := 0
  registrationFvk := Vector.replicate 32 5
  registrationNote := Vector.replicate 32 1

/-- The head that the REFRESH replaces: the note behind it is the one that the REVEAL spends. -/
def predecessor : Head where
  name := alice
  ua := ua
  producer := ⟨1, 0, Vector.replicate 32 11, 0⟩
  commitment := field 2
  futureNf := field 3
  producerEpoch := 0
  expiryHeight := 5
  terminalHeight := none

/-- What the wallet knows before the REFRESH. -/
def refreshInputs : RefreshInputs where
  walletSeed := walletSeed
  deployment := deployment
  name := alice
  predecessor := predecessor
  predecessorNote := Vector.replicate 32 1
  ua := ua
  operationHeight := 4
  designatedActionIndex := 0

/-- A funding spend and change. -/
def funding : List FundingSpend := [⟨Vector.replicate 32 5, Vector.replicate 32 4⟩]

def change : List ChangeOutput :=
  [⟨Vector.replicate 32 5, none, (), 40000, Vector.replicate 512 0⟩]

/-- The witnesses and the keys of both real spends, in different orders. -/
def assemblyPlan : NamesAssemblyPlan where
  params := ()
  consensusBranchId := ()
  expiryHeight := 40
  fallbackLockTime := 0
  witnesses :=
    { anchor := 5
      spends := [⟨number 9, pathAt 30⟩, ⟨number 3, pathAt 10⟩] }
  provingKey := ()
  signing :=
    { spends := [⟨number 3, (3 : UInt8)⟩, ⟨number 9, (9 : UInt8)⟩] }

/-- A sort that the kernel evaluates. -/
theorem mergeSort_eq (l : List ℕ) : l.mergeSort = l.insertionSort (· ≤ ·) :=
  List.mergeSort_eq_insertionSort _ l

/-- The plan of a publication, assembled, and the actions that are read off the transaction. -/
def actionsOf (plan : Except BuilderError NamesIronwoodPlan) : Option (List Action) := do
  let plan ← plan.toOption
  let extracted ← (assembleNamesTransaction plan () assemblyPlan).toOption
  let ironwood ← Assembly.ironwoodBundle extracted.transaction
  (coreActions ironwood.effects).toOption

theorem exists_assembled {plan : Except BuilderError NamesIronwoodPlan}
    (h : (actionsOf plan).isSome = true) : ∃ planned extracted ironwood actions,
      plan = .ok planned ∧ assembleNamesTransaction planned () assemblyPlan = .ok extracted ∧
      Assembly.ironwoodBundle extracted.transaction = some ironwood ∧
      coreActions ironwood.effects = .ok actions ∧ actionsOf plan = some actions := by
  obtain ⟨actions, hread⟩ := Option.isSome_iff_exists.1 h
  have hsteps := hread
  simp only [actionsOf, Option.bind_eq_bind, Option.bind_eq_some_iff,
    Except.toOption_eq_some_iff] at hsteps
  obtain ⟨planned, hplan, extracted, hextracted, ironwood, hironwood, hactions⟩ := hsteps
  exact ⟨planned, extracted, ironwood, actions, hplan, hextracted, hironwood, hactions, hread⟩

/-- The REVEAL is prepared, planned, assembled and read. -/
theorem exists_reveal : ∃ prepared, prepareReveal revealInputs () = .ok prepared ∧
    (actionsOf (prepared.ironwoodPlan (Vector.replicate 32 5) (Vector.replicate 32 1) funding
      change)).isSome = true := by
  have hread : ((prepareReveal revealInputs ()).toOption.map fun prepared ↦
      (actionsOf (prepared.ironwoodPlan (Vector.replicate 32 5) (Vector.replicate 32 1) funding
        change)).isSome) = some true := by
    simp only [actionsOf, assembleNamesTransaction, installNamesIronwoodWitnesses,
      resolveWitnessPlan, proveNamesIronwoodPczt, checkUnproved, checkProved,
      signNamesIronwoodPczt, signNamesIronwoodPcztCore, signingTargets, checkSigned, mergeSort_eq]
    decide +kernel
  obtain ⟨prepared, hprepared, hread⟩ := Option.map_eq_some_iff.1 hread
  exact ⟨prepared, Except.toOption_eq_some_iff.1 hprepared, hread⟩

/-- So is the REFRESH. -/
theorem exists_refresh : ∃ prepared, prepareRefresh refreshInputs () = .ok prepared ∧
    (actionsOf (prepared.ironwoodPlan (Vector.replicate 32 5) (Vector.replicate 32 1) funding
      change)).isSome = true := by
  have hread : ((prepareRefresh refreshInputs ()).toOption.map fun prepared ↦
      (actionsOf (prepared.ironwoodPlan (Vector.replicate 32 5) (Vector.replicate 32 1) funding
        change)).isSome) = some true := by
    simp only [actionsOf, assembleNamesTransaction, installNamesIronwoodWitnesses,
      resolveWitnessPlan, proveNamesIronwoodPczt, checkUnproved, checkProved,
      signNamesIronwoodPczt, signNamesIronwoodPcztCore, signingTargets, checkSigned, mergeSort_eq]
    decide +kernel
  obtain ⟨prepared, hprepared, hread⟩ := Option.map_eq_some_iff.1 hread
  exact ⟨prepared, Except.toOption_eq_some_iff.1 hprepared, hread⟩

theorem assembled_carries_plan_reveal : ∃ plan extracted,
    assembleNamesTransaction plan () assemblyPlan = .ok extracted ∧
      extracted.Of plan () assemblyPlan := by
  obtain ⟨prepared, -, hread⟩ := exists_reveal
  obtain ⟨plan, extracted, -, -, -, hextracted, -⟩ := exists_assembled hread
  exact ⟨plan, extracted, hextracted, (assembled_carries_plan plan () assemblyPlan).2 _ hextracted⟩

theorem prepared_pair_mined_both :
    (∃ prepared op actions, prepareReveal revealInputs () = .ok prepared ∧
      prepared.publication.operation = .reveal op ∧
      actionsOf (prepared.ironwoodPlan (Vector.replicate 32 5) (Vector.replicate 32 1) funding
        change) = some actions ∧
      actions[op.actionIndex.val]? = some ⟨op.actionIndex, prepared.statement.actionNullifier,
        prepared.statement.actionCommitment⟩) ∧
    ∃ prepared op actions, prepareRefresh refreshInputs () = .ok prepared ∧
      prepared.publication.operation = .refresh op ∧
      actionsOf (prepared.ironwoodPlan (Vector.replicate 32 5) (Vector.replicate 32 1) funding
        change) = some actions ∧
      actions[op.actionIndex.val]? = some ⟨op.actionIndex, predecessor.futureNf,
        prepared.statement.actionCommitment⟩ := by
  constructor
  · obtain ⟨prepared, hprepared, hread⟩ := exists_reveal
    obtain ⟨plan, extracted, ironwood, actions, hplan, hextracted, hironwood, hactions, hread⟩ :=
      exists_assembled hread
    obtain ⟨op, hop, -, hmined⟩ := (prepared_pair_mined rhoKept _ _ _ _ plan () assemblyPlan
      extracted hextracted ironwood hironwood).1 revealInputs () prepared hprepared hplan
    exact ⟨prepared, op, actions, hprepared, hop, hread, hmined.designated actions hactions⟩
  · obtain ⟨prepared, hprepared, hread⟩ := exists_refresh
    obtain ⟨plan, extracted, ironwood, actions, hplan, hextracted, hironwood, hactions, hread⟩ :=
      exists_assembled hread
    obtain ⟨op, hop, -, hmined⟩ := (prepared_pair_mined rhoKept _ _ _ _ plan () assemblyPlan
      extracted hextracted ironwood hironwood).2 refreshInputs () prepared hprepared hplan
    exact ⟨prepared, op, actions, hprepared, hop, hread, hmined.designated actions hactions⟩

end Sample.Whole

end CoppiceNames
