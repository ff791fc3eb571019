import CoppiceNames.Wallet.Witnesses

/-!
# Signing the real spends

`sign_names_ironwood_pczt_core` of `builder.rs`. The indices of the witnessed spends come from the
step that installed the witnesses; the signing plan names the spends by nullifier, and again each
key is looked up on its own before the indices are compared.
-/

namespace CoppiceNames

section Signing

variable [Roles]

/-- `NamesIronwoodSigningKey`. -/
structure NamesIronwoodSigningKey where
  nullifier : Bytes32
  ask : Roles.SpendAuthorizingKey

/-- `NamesSigningPlan`. -/
structure NamesSigningPlan where
  spends : List NamesIronwoodSigningKey

omit [Roles] in
/-- `NamesSigningMetadata`. -/
structure NamesSigningMetadata where
  anchor : PallasBase
  witnessedActionIndices : List (Bytes32 × ℕ)
  designatedActionIndex : U32
  designatedNullifier : Bytes32
  designatedCommitment : Bytes32
  actionCount : ℕ
  realSpendCount : ℕ
  ironwoodValueBalance : Int64

/-- The loop over the witness metadata, with the entries before the current one. -/
def checkWitnessed (pczt : Pczt) (prior : List (Bytes32 × ℕ)) :
    List (Bytes32 × ℕ) → Except BuilderError Unit
  | [] => .ok ()
  | (nullifier, actionIndex) :: rest => do
    BuilderError.ensure (actionIndex < pczt.actions.length)
      "witness metadata contains an invalid Ironwood action index"
    BuilderError.ensure (nullifier ∉ prior.map Prod.fst)
      "witness metadata contains duplicate real-spend nullifiers"
    BuilderError.ensure (actionIndex ∉ prior.map Prod.snd)
      "witness metadata contains duplicate real-spend action indices"
    let action ← pczt.action actionIndex
    BuilderError.ensure (action.nullifier = nullifier)
      "witness metadata nullifier does not match its Ironwood action"
    BuilderError.ensure (action.witness.isSome = true)
      "a real Ironwood spend is missing its witness before signing"
    BuilderError.ensure (action.spendAuthSig = none)
      "a real Ironwood spend is already signed before signing"
    checkWitnessed pczt (prior ++ [(nullifier, actionIndex)]) rest

/-- `dummy_signatures`. -/
def dummySignatures (actions : List PcztAction) : List (ℕ × Vector UInt8 64) :=
  actions.zipIdx.filterMap fun entry ↦
    entry.1.spendAuthSig.map fun signature ↦ (entry.2, signature)

/-- The checks on the PCZT and its metadata. -/
def checkSigningMetadata (pczt : Pczt) (metadata : NamesSigningMetadata) :
    Except BuilderError Unit := do
  BuilderError.ensure (pczt.anchor = some metadata.anchor.toRepr)
    "signing PCZT anchor does not match the expected anchor"
  BuilderError.ensure (pczt.actions.length = metadata.actionCount)
    "pre-sign Ironwood action count changed"
  let valueSum ← valueSumParts metadata.ironwoodValueBalance
  BuilderError.ensure (pczt.valueSum = valueSum) "pre-sign Ironwood value balance changed"
  verifyEmbeddedDesignatedAction pczt metadata.designatedActionIndex metadata.designatedNullifier
    metadata.designatedCommitment
  checkWitnessed pczt [] metadata.witnessedActionIndices
  BuilderError.ensure (metadata.witnessedActionIndices.length = metadata.realSpendCount)
    "witness metadata does not cover exactly the real Ironwood spends"
  if metadata.actionCount < metadata.realSpendCount then
    .error (.failed "real spend count exceeds Ironwood action count")
  BuilderError.ensure
    ((dummySignatures pczt.actions).length = metadata.actionCount - metadata.realSpendCount)
    "unexpected number of pre-existing Ironwood spend signatures"

/-- The loop over the signing keys. -/
def resolveSigners (pczt : Pczt) (table : List (Bytes32 × ℕ))
    (resolved : List (ℕ × Roles.SpendAuthorizingKey)) :
    List NamesIronwoodSigningKey →
      Except BuilderError (List (ℕ × Roles.SpendAuthorizingKey))
  | [] => .ok resolved
  | signingKey :: rest =>
    match table.filter fun entry ↦ entry.1 = signingKey.nullifier with
    | [] => .error (.failed
      ("signing nullifier is not one of the real witnessed Ironwood spends: " ++
        debugHex signingKey.nullifier))
    | (_, actionIndex) :: more => do
      BuilderError.ensure (more.isEmpty = true)
        "signing nullifier maps to more than one witnessed Ironwood spend"
      BuilderError.ensure (actionIndex ∉ resolved.map Prod.fst)
        "signing plan contains a duplicate real-spend target"
      let action ← pczt.action actionIndex
      BuilderError.ensure (action.nullifier = signingKey.nullifier)
        "resolved signing action has an unexpected nullifier"
      resolveSigners pczt table (resolved ++ [(actionIndex, signingKey.ask)]) rest

/-- Everything before `Signer::new`: the checks, and the targets of the plan. -/
def signingTargets (pczt : Pczt) (metadata : NamesSigningMetadata) (plan : NamesSigningPlan) :
    Except BuilderError (List (ℕ × Roles.SpendAuthorizingKey)) := do
  let _ ← embeddedActionLayout pczt
  checkSigningMetadata pczt metadata
  BuilderError.ensure (plan.spends.length = metadata.realSpendCount)
    "signing plan does not cover exactly the real Ironwood spends"
  let targets ← resolveSigners pczt metadata.witnessedActionIndices [] plan.spends
  BuilderError.ensure ((targets.map Prod.fst).mergeSort =
      (metadata.witnessedActionIndices.map Prod.snd).mergeSort)
    "signing plan does not cover every real witnessed Ironwood spend"
  return targets

/-- The loop over the targets. -/
def signAll (signer : Roles.Signer) (targets : List (ℕ × Roles.SpendAuthorizingKey)) :
    Except BuilderError Roles.Signer :=
  targets.foldlM (fun signer target ↦ BuilderError.during "sign Names Ironwood spend: "
    (Roles.signIronwood signer target.1 target.2)) signer

/-- The checks after the Signer. -/
def checkSigned (pczt : Pczt) (metadata : NamesSigningMetadata) (signed : Pczt) :
    Except BuilderError Unit := do
  BuilderError.ensure (signed.actions.length = pczt.actions.length)
    "Signer changed the Ironwood action count"
  let layout ← embeddedActionLayout signed
  let beforeActionLayout ← embeddedActionLayout pczt
  BuilderError.ensure (layout = beforeActionLayout)
    "Signer changed the ordered Ironwood action layout"
  BuilderError.ensure (signed.valueSum = pczt.valueSum) "Signer changed the Ironwood value balance"
  BuilderError.ensure (signed.anchor = pczt.anchor) "Signer changed the Ironwood anchor"
  BuilderError.ensure (signed.zkproof = pczt.zkproof) "Signer changed the Ironwood proof"
  verifyEmbeddedDesignatedAction signed metadata.designatedActionIndex metadata.designatedNullifier
    metadata.designatedCommitment
  (metadata.witnessedActionIndices.map Prod.snd).mergeSort.forM fun actionIndex ↦ do
    let action ← signed.action actionIndex
    BuilderError.ensure (action.witness.isSome = true)
      "Signer removed a real Ironwood spend witness"
    BuilderError.ensure (action.spendAuthSig.isSome = true)
      "Signer did not authorize a real Ironwood spend"
  (dummySignatures pczt.actions).forM fun (actionIndex, signature) ↦ do
    let action ← signed.action actionIndex
    BuilderError.ensure (action.spendAuthSig = some signature)
      "Signer changed a dummy Ironwood spend signature"
  BuilderError.ensure ((signed.actions.filter fun action ↦ action.spendAuthSig.isSome).length =
      metadata.actionCount) "Signer did not authorize every Ironwood action"

/-- `sign_names_ironwood_pczt_core`. -/
def signNamesIronwoodPcztCore (pczt : Pczt) (metadata : NamesSigningMetadata)
    (plan : NamesSigningPlan) : Except BuilderError Pczt := do
  let targets ← signingTargets pczt metadata plan
  let signer ← BuilderError.during "initialize Names PCZT signer: " (Roles.newSigner pczt)
  let signer ← signAll signer targets
  checkSigned pczt metadata (Roles.finish signer)
  return Roles.finish signer

/-! ### Metadata -/

omit [Roles] in
/-- The metadata describes the PCZT: the witnessed spends are actions with a witness and without a
signature, and the actions that are signed are as many as the others. -/
structure NamesSigningMetadata.Consistent (metadata : NamesSigningMetadata)
    (pczt : Pczt) : Prop where
  commitments : ∀ action ∈ pczt.actions, action.cmx.isSome = true
  anchor : pczt.anchor = some metadata.anchor.toRepr
  actionCount : pczt.actions.length = metadata.actionCount
  valueSum : valueSumParts metadata.ironwoodValueBalance = .ok pczt.valueSum
  designated : verifyEmbeddedDesignatedAction pczt metadata.designatedActionIndex
    metadata.designatedNullifier metadata.designatedCommitment = .ok ()
  witnessed : ∀ entry ∈ metadata.witnessedActionIndices, ∃ action,
    pczt.actions[entry.2]? = some action ∧ action.nullifier = entry.1 ∧
      action.witness.isSome = true ∧ action.spendAuthSig = none
  nullifiers_nodup : (metadata.witnessedActionIndices.map Prod.fst).Nodup
  indices_nodup : (metadata.witnessedActionIndices.map Prod.snd).Nodup
  realSpendCount : metadata.witnessedActionIndices.length = metadata.realSpendCount
  signatures : (pczt.actions.filter fun action ↦ action.spendAuthSig.isSome).length +
    metadata.realSpendCount = metadata.actionCount

variable {pczt : Pczt} {metadata : NamesSigningMetadata} {plan : NamesSigningPlan}

omit [Roles] in
theorem checkWitnessed_eq_ok {prior entries : List (Bytes32 × ℕ)}
    (hwitnessed : ∀ entry ∈ entries, ∃ action, pczt.actions[entry.2]? = some action ∧
      action.nullifier = entry.1 ∧ action.witness.isSome = true ∧ action.spendAuthSig = none)
    (hnullifiers : ((prior ++ entries).map Prod.fst).Nodup)
    (hindices : ((prior ++ entries).map Prod.snd).Nodup) :
    checkWitnessed pczt prior entries = .ok () := by
  induction entries generalizing prior with
  | nil => rfl
  | cons entry rest ih =>
    obtain ⟨nullifier, index⟩ := entry
    obtain ⟨⟨action, haction, hnullifier, hwitness, hunsigned⟩, hrest⟩ :=
      List.forall_mem_cons.1 hwitnessed
    have hsplit : prior ++ (nullifier, index) :: rest =
      (prior ++ [(nullifier, index)]) ++ rest := by
      rw [List.append_assoc]
      rfl
    rw [hsplit] at hnullifiers hindices
    have hfresh := hnullifiers
    have hfreshIndex := hindices
    rw [List.map_append] at hfresh hfreshIndex
    have hlt : index < pczt.actions.length := (List.getElem?_eq_some_iff.1 haction).1
    rw [checkWitnessed, BuilderError.ensure_bind_eq_ok_iff, BuilderError.ensure_bind_eq_ok_iff,
      BuilderError.ensure_bind_eq_ok_iff]
    refine ⟨hlt, (nodup_map_concat_iff.1 hfresh.of_append_left).2,
      (nodup_map_concat_iff.1 hfreshIndex.of_append_left).2,
      Except.bind_eq_ok_iff.2 ⟨action, Pczt.action_eq_ok_iff.2 haction, ?_⟩⟩
    rw [BuilderError.ensure_bind_eq_ok_iff, BuilderError.ensure_bind_eq_ok_iff,
      BuilderError.ensure_bind_eq_ok_iff]
    exact ⟨hnullifier, hwitness, hunsigned, ih hrest hnullifiers hindices⟩

omit [Roles] in
theorem length_dummySignatures (actions : List PcztAction) :
    (dummySignatures actions).length =
      (actions.filter fun action ↦ action.spendAuthSig.isSome).length := by
  conv_rhs => rw [← List.zipIdx_map_fst 0 actions, List.filter_map, List.length_map]
  rw [dummySignatures, List.length_filterMap_eq_countP, List.countP_eq_length_filter]
  simp only [Option.isSome_map]
  rfl

omit [Roles] in
theorem checkSigningMetadata_eq_ok (hconsistent : metadata.Consistent pczt) :
    checkSigningMetadata pczt metadata = .ok () := by
  have hsignatures := hconsistent.signatures
  have hwitnessed : checkWitnessed pczt [] metadata.witnessedActionIndices = .ok () :=
    checkWitnessed_eq_ok hconsistent.witnessed hconsistent.nullifiers_nodup
      hconsistent.indices_nodup
  have hdummies : (dummySignatures pczt.actions).length =
      metadata.actionCount - metadata.realSpendCount := by
    rw [length_dummySignatures]
    omega
  have hle : ¬ metadata.actionCount < metadata.realSpendCount := by omega
  simp only [checkSigningMetadata, Except.bind_eq_ok_iff, BuilderError.ensure_eq_ok_iff,
    hconsistent.anchor, hconsistent.actionCount, hconsistent.valueSum, hconsistent.designated,
    hwitnessed, hconsistent.realSpendCount, hdummies, if_neg hle,
    Except.ok.injEq, exists_eq_left', exists_const, true_and]

/-! ### Targets -/

/-- The signing keys under their nullifiers. -/
def signingRequests (spends : List NamesIronwoodSigningKey) :
    List (Bytes32 × Roles.SpendAuthorizingKey) :=
  spends.map fun signingKey ↦ (signingKey.nullifier, signingKey.ask)

theorem signingRequests_keys (spends : List NamesIronwoodSigningKey) :
    (signingRequests spends).map Prod.fst = spends.map NamesIronwoodSigningKey.nullifier := by
  rw [signingRequests, List.map_map]
  rfl

variable {spends : List NamesIronwoodSigningKey}
  {targets : List (ℕ × Roles.SpendAuthorizingKey)}

/-- **The loop over the signing keys**, on a table of actions under their own nullifiers. -/
theorem resolveSigners_eq_ok_iff {table : List (Bytes32 × ℕ)}
    (htable : ∀ entry ∈ table, ∃ action, pczt.actions[entry.2]? = some action ∧
      action.nullifier = entry.1)
    {resolved result : List (ℕ × Roles.SpendAuthorizingKey)}
    (hnodup : (resolved.map Prod.fst).Nodup) :
    resolveSigners pczt table resolved spends = .ok result ↔
      ResolvedFrom table resolved (signingRequests spends) result := by
  induction spends generalizing resolved with
  | nil =>
    rw [resolveSigners, Except.ok.injEq, show signingRequests [] = [] from rfl,
      resolvedFrom_nil_iff hnodup]
  | cons signingKey rest ih =>
    rw [resolveSigners, show signingRequests (signingKey :: rest) =
      (signingKey.nullifier, signingKey.ask) :: signingRequests rest from rfl]
    have hslots : slotsOf table signingKey.nullifier =
        (table.filter fun entry ↦ entry.1 = signingKey.nullifier).map Prod.snd := rfl
    rcases hfilter : table.filter fun entry ↦ entry.1 = signingKey.nullifier
      with - | ⟨⟨nullifier, index⟩, more⟩
    · -- the metadata has no such nullifier
      rw [hfilter] at hslots ⊢
      exact iff_of_false (by simp) (not_resolvedFrom_cons hslots)
    · have hmem : (nullifier, index) ∈
          table.filter fun entry ↦ entry.1 = signingKey.nullifier := by
        rw [hfilter]
        exact List.mem_cons_self
      rw [List.mem_filter, decide_eq_true_eq] at hmem
      obtain ⟨action, haction, hnullifier⟩ := htable _ hmem.1
      have hmatch : action.nullifier = signingKey.nullifier := hnullifier.trans hmem.2
      rw [hfilter] at hslots ⊢
      dsimp only
      rw [BuilderError.ensure_bind_eq_ok_iff, BuilderError.ensure_bind_eq_ok_iff,
        Pczt.action_eq_ok_iff.2 haction, resolvedFrom_cons_iff hslots,
        List.map_eq_nil_iff, List.isEmpty_iff]
      refine and_congr_right fun _ ↦ and_congr_right fun hfresh ↦ ?_
      show (BuilderError.ensure (action.nullifier = signingKey.nullifier) _ >>= fun _ ↦
        resolveSigners pczt table (resolved ++ [(index, signingKey.ask)]) rest) = .ok result ↔ _
      rw [BuilderError.ensure_bind_eq_ok_iff, and_iff_right hmatch]
      exact ih (nodup_map_concat_iff.2 ⟨hnodup, hfresh⟩)

/-- **Everything before the Signer** passes exactly for an assignment to the witnessed spends. -/
theorem signingTargets_eq_ok_iff (hconsistent : metadata.Consistent pczt) :
    signingTargets pczt metadata plan = .ok targets ↔
      Assigns metadata.witnessedActionIndices metadata.witnessedActionIndices
        (signingRequests plan.spends) targets := by
  obtain ⟨layout, hlayout⟩ : ∃ layout, embeddedActionLayout pczt = .ok layout :=
    exists_embeddedActionLayout hconsistent.commitments
  have htable : ∀ entry ∈ metadata.witnessedActionIndices, ∃ action,
      pczt.actions[entry.2]? = some action ∧ action.nullifier = entry.1 := by
    intro entry hentry
    obtain ⟨action, haction, hnullifier, -⟩ := hconsistent.witnessed entry hentry
    exact ⟨action, haction, hnullifier⟩
  have hsteps : signingTargets pczt metadata plan = .ok targets ↔
      plan.spends.length = metadata.realSpendCount ∧
        resolveSigners pczt metadata.witnessedActionIndices [] plan.spends = .ok targets ∧
        (targets.map Prod.fst).Perm (metadata.witnessedActionIndices.map Prod.snd) := by
    simp only [signingTargets, Except.bind_eq_ok_iff, BuilderError.ensure_eq_ok_iff, hlayout,
      checkSigningMetadata_eq_ok hconsistent, mergeSort_eq_mergeSort_iff_perm, Except.ok.injEq,
      exists_eq_left', exists_const, true_and, pure, Except.pure]
    constructor
    · rintro ⟨hlength, found, hfound, hperm, rfl⟩
      exact ⟨hlength, hfound, hperm⟩
    · rintro ⟨hlength, hfound, hperm⟩
      exact ⟨hlength, targets, hfound, hperm, rfl⟩
  rw [hsteps, resolveSigners_eq_ok_iff htable (show
    (([] : List (ℕ × Roles.SpendAuthorizingKey)).map Prod.fst).Nodup from List.nodup_nil),
    resolvedFrom_start_iff]
  constructor
  · rintro ⟨-, ⟨hfound, -⟩, hperm⟩
    exact ⟨hfound, hperm⟩
  · intro h
    refine ⟨?_, ⟨h.resolved, h.nodup hconsistent.indices_nodup (List.Sublist.refl _)⟩, h.covers⟩
    have hlength := h.resolved.length_eq
    have hslotsLength := h.covers.length_eq
    rw [signingRequests, List.length_map] at hlength
    rw [List.length_map, List.length_map] at hslotsLength
    rw [hlength, hslotsLength, hconsistent.realSpendCount]

/-- **When signing is reached.** -/
theorem exists_signingTargets_iff (hconsistent : metadata.Consistent pczt) :
    (∃ targets, signingTargets pczt metadata plan = .ok targets) ↔
      (plan.spends.map NamesIronwoodSigningKey.nullifier).Perm
        (metadata.witnessedActionIndices.map Prod.fst) := by
  simp only [signingTargets_eq_ok_iff hconsistent]
  rw [exists_assigns_iff hconsistent.indices_nodup (List.Subset.refl _), signingRequests_keys]
  refine and_iff_left fun nullifier hnullifier ↦ ?_
  exact List.count_eq_one_of_mem hconsistent.nullifiers_nodup hnullifier

/-! ### Signatures -/

variable {signature : ℕ → Roles.SpendAuthorizingKey → Option (Vector UInt8 64)}
  {signer final : Roles.Signer} {sigs : List (ℕ × Vector UInt8 64)} {actions : List PcztAction}

/-- The signature of a target. -/
def Authorizes (signature : ℕ → Roles.SpendAuthorizingKey → Option (Vector UInt8 64))
    (target : ℕ × Roles.SpendAuthorizingKey) (sig : ℕ × Vector UInt8 64) : Prop :=
  sig.1 = target.1 ∧ signature target.1 target.2 = some sig.2

theorem map_fst_of_authorizes (h : List.Forall₂ (Authorizes signature) targets sigs) :
    sigs.map Prod.fst = targets.map Prod.fst := by
  induction h with
  | nil => rfl
  | cons hfirst _ ih => rw [List.map_cons, List.map_cons, ih, hfirst.1]

theorem authorized_unique {sigs' : List (ℕ × Vector UInt8 64)}
    (h : List.Forall₂ (Authorizes signature) targets sigs)
    (h' : List.Forall₂ (Authorizes signature) targets sigs') : sigs = sigs' := by
  refine Relator.RightUnique.forall₂ (fun target a b ha hb ↦ ?_) h h'
  exact Prod.ext (ha.1.trans hb.1.symm) (Option.some.inj (ha.2.symm.trans hb.2))

/-- **What signing writes**: the signature of every target, and nothing else. -/
theorem signAll_writes (hroles : SignsListed pczt signature) (hsigner : SignerOf pczt signer)
    (hrange : ∀ target ∈ targets, target.1 < pczt.actions.length)
    (hnodup : (targets.map Prod.fst).Nodup) (h : signAll signer targets = .ok final) :
    ∃ sigs actions, List.Forall₂ (Authorizes signature) targets sigs ∧
      Roles.finish final = { Roles.finish signer with actions := actions } ∧
      Writes PcztAction.setSignature sigs (Roles.finish signer).actions actions := by
  induction targets generalizing signer with
  | nil =>
    obtain rfl := Except.ok.inj h
    exact ⟨[], (Roles.finish signer).actions, List.Forall₂.nil, rfl, Writes.nil⟩
  | cons target rest ih =>
    obtain ⟨hlt, hrest⟩ := List.forall_mem_cons.1 hrange
    rw [List.map_cons, List.nodup_cons] at hnodup
    rw [signAll, List.foldlM_cons, Except.bind_eq_ok_iff] at h
    obtain ⟨next, hnext, h⟩ := h
    rw [BuilderError.during_eq_ok_iff] at hnext
    rcases hsig : signature target.1 target.2 with - | sig
    · obtain ⟨e, he⟩ := hroles.refuses signer target.1 target.2 hsigner hsig
      rw [hnext] at he
      exact absurd he (by simp)
    · obtain ⟨next', middle, hnext', hmiddle, hwrite⟩ :=
        hroles.signs signer target.1 target.2 sig hsigner hlt hsig
      obtain rfl := Except.ok.inj (hnext.symm.trans hnext')
      obtain ⟨sigs, actions, hsigs, hfinal, hwrites⟩ := ih (hsigner.sign hnext) hrest hnodup.2 h
      rw [hmiddle] at hfinal hwrites
      refine ⟨(target.1, sig) :: sigs, actions, List.Forall₂.cons ⟨rfl, hsig⟩ hsigs, hfinal,
        hwrite.cons hwrites ?_⟩
      rw [map_fst_of_authorizes hsigs]
      exact hnodup.1

/-- Signing comes to its end when every key signs. -/
theorem exists_signAll (hroles : SignsListed pczt signature) (hsigner : SignerOf pczt signer)
    (hrange : ∀ target ∈ targets, target.1 < pczt.actions.length)
    (hsigns : ∀ target ∈ targets, (signature target.1 target.2).isSome = true) :
    ∃ final, signAll signer targets = .ok final := by
  induction targets generalizing signer with
  | nil => exact ⟨signer, rfl⟩
  | cons target rest ih =>
    obtain ⟨hlt, hrest⟩ := List.forall_mem_cons.1 hrange
    obtain ⟨hfirst, hothers⟩ := List.forall_mem_cons.1 hsigns
    obtain ⟨sig, hsig⟩ := Option.isSome_iff_exists.1 hfirst
    obtain ⟨next, middle, hnext, -⟩ :=
      hroles.signs signer target.1 target.2 sig hsigner hlt hsig
    obtain ⟨final, hfinal⟩ := ih (hsigner.sign hnext) hrest hothers
    refine ⟨final, ?_⟩
    rw [signAll, List.foldlM_cons, Except.bind_eq_ok_iff]
    exact ⟨next, BuilderError.during_eq_ok_iff.2 hnext, hfinal⟩

/-! ### After the Signer -/

omit [Roles] in
/-- **The unsigned actions are the witnessed ones**: there are as many of them. -/
theorem NamesSigningMetadata.Consistent.mem_of_unsigned (h : metadata.Consistent pczt) {i : ℕ}
    {action : PcztAction} (haction : pczt.actions[i]? = some action)
    (hunsigned : action.spendAuthSig = none) :
    i ∈ metadata.witnessedActionIndices.map Prod.snd := by
  let unsigned := (pczt.actions.zipIdx.filter fun entry ↦ !entry.1.spendAuthSig.isSome).map Prod.snd
  have hmem : ∀ j, j ∈ unsigned ↔
      ∃ action, pczt.actions[j]? = some action ∧ action.spendAuthSig = none := by
    intro j
    simp [unsigned, List.mk_mem_zipIdx_iff_getElem?]
  have hlength : unsigned.length = metadata.realSpendCount := by
    have hsplit := List.length_eq_length_filter_add (l := pczt.actions)
      fun action ↦ action.spendAuthSig.isSome
    have hsignatures := h.signatures
    have hcount := h.actionCount
    have hunsigned : unsigned.length =
        (pczt.actions.filter fun action ↦ !action.spendAuthSig.isSome).length := by
      conv_rhs => rw [← List.zipIdx_map_fst 0 pczt.actions, List.filter_map, List.length_map]
      rw [List.length_map]
      rfl
    omega
  have hsubset : metadata.witnessedActionIndices.map Prod.snd ⊆ unsigned := by
    intro j hj
    obtain ⟨entry, hentry, rfl⟩ := List.mem_map.1 hj
    obtain ⟨action, haction, -, -, hnone⟩ := h.witnessed entry hentry
    exact (hmem entry.2).2 ⟨action, haction, hnone⟩
  have hperm : (metadata.witnessedActionIndices.map Prod.snd).Perm unsigned :=
    (List.Nodup.subperm h.indices_nodup hsubset).perm_of_length_le (by
      rw [hlength, List.length_map, h.realSpendCount])
  exact hperm.mem_iff.2 ((hmem i).2 ⟨action, haction, hunsigned⟩)

omit [Roles] in
/-- **The checks after the Signer** pass when it signed the witnessed spends. -/
theorem checkSigned_eq_ok (h : metadata.Consistent pczt)
    (hcovers : (sigs.map Prod.fst).Perm (metadata.witnessedActionIndices.map Prod.snd))
    (hwrites : Writes PcztAction.setSignature sigs pczt.actions actions) :
    checkSigned pczt metadata { pczt with actions := actions } = .ok () := by
  obtain ⟨layout, hlayout⟩ := exists_embeddedActionLayout h.commitments
  have hpairs : actions.map PcztAction.pair = pczt.actions.map PcztAction.pair :=
    hwrites.map_eq fun _ _ ↦ rfl
  have hsame : embeddedActionLayout { pczt with actions := actions } = .ok layout :=
    (embeddedActionLayout_congr hpairs).trans hlayout
  have hdesignated : verifyEmbeddedDesignatedAction { pczt with actions := actions }
      metadata.designatedActionIndex metadata.designatedNullifier metadata.designatedCommitment =
        .ok () := by
    rw [← h.designated]
    exact verifyEmbeddedDesignatedAction_congr hpairs _ _ _
  have hreal : ((metadata.witnessedActionIndices.map Prod.snd).mergeSort.forM
      fun (actionIndex : ℕ) ↦ do
        let action ← Pczt.action { pczt with actions := actions } actionIndex
        BuilderError.ensure (action.witness.isSome = true)
          "Signer removed a real Ironwood spend witness"
        BuilderError.ensure (action.spendAuthSig.isSome = true)
          "Signer did not authorize a real Ironwood spend") = .ok () := by
    refine List.forM_eq_ok_iff.2 fun index hindex ↦ ?_
    rw [(List.mergeSort_perm _ _).mem_iff] at hindex
    obtain ⟨entry, hentry, rfl⟩ := List.mem_map.1 hindex
    obtain ⟨action, haction, -, hwitness, -⟩ := h.witnessed entry hentry
    obtain ⟨⟨index, sig⟩, hsig, hslot⟩ := List.mem_map.1 (hcovers.mem_iff.2 hindex)
    have hlisted := hwrites.listed (index, sig) hsig
    rw [show index = entry.2 from hslot, haction, Option.map_some] at hlisted
    refine Except.bind_eq_ok_iff.2 ⟨_, Pczt.action_eq_ok_iff.2 hlisted, ?_⟩
    exact BuilderError.ensure_bind_eq_ok_iff.2 ⟨hwitness, BuilderError.ensure_eq_ok_iff.2 rfl⟩
  have hdummies : ((dummySignatures pczt.actions).forM fun (entry : ℕ × Vector UInt8 64) ↦ do
      let action ← Pczt.action { pczt with actions := actions } entry.1
      BuilderError.ensure (action.spendAuthSig = some entry.2)
        "Signer changed a dummy Ironwood spend signature") = .ok () := by
    refine List.forM_eq_ok_iff.2 fun entry hentry ↦ ?_
    obtain ⟨⟨action, index⟩, hmem, hstate⟩ := List.mem_filterMap.1 hentry
    obtain ⟨signature, hsignature, rfl⟩ := Option.map_eq_some_iff.1 hstate
    have haction : pczt.actions[index]? = some action := List.mk_mem_zipIdx_iff_getElem?.1 hmem
    have hunlisted : index ∉ sigs.map Prod.fst := by
      intro hmem
      obtain ⟨listed, hlisted, rfl⟩ := List.mem_map.1 (hcovers.mem_iff.1 hmem)
      obtain ⟨action', haction', -, -, hnone⟩ := h.witnessed listed hlisted
      rw [haction, Option.some_inj] at haction'
      rw [← haction', hsignature] at hnone
      exact absurd hnone (by simp)
    refine Except.bind_eq_ok_iff.2 ⟨action, Pczt.action_eq_ok_iff.2 ?_,
      BuilderError.ensure_eq_ok_iff.2 hsignature⟩
    exact (hwrites.unlisted index hunlisted).trans haction
  -- what was unsigned is signed now
  have hall : (actions.filter fun action ↦ action.spendAuthSig.isSome).length =
      metadata.actionCount := by
    rw [← h.actionCount, ← hwrites.length_eq]
    refine congrArg List.length (List.filter_eq_self.2 fun action haction ↦ ?_)
    obtain ⟨i, hi⟩ := List.mem_iff_getElem?.1 haction
    by_cases hlisted : i ∈ sigs.map Prod.fst
    · obtain ⟨⟨index, sig⟩, hsig, rfl⟩ := List.mem_map.1 hlisted
      rw [hwrites.listed (index, sig) hsig] at hi
      obtain ⟨before, -, rfl⟩ := Option.map_eq_some_iff.1 hi
      rfl
    · rw [hwrites.unlisted i hlisted] at hi
      rcases hsig : action.spendAuthSig with - | sig
      · exact absurd (hcovers.mem_iff.2 (h.mem_of_unsigned hi hsig)) hlisted
      · rfl
  simp only [checkSigned, BuilderError.ensure_eq_ok_iff, Except.bind_eq_ok_iff, hsame, hlayout,
    hdesignated, hwrites.length_eq, hall, Except.ok.injEq, exists_eq_left', exists_const, true_and]
  exact ⟨(), hreal, (), hdummies, trivial⟩

/-! ### Signing -/

variable {signed : Pczt}

/-- **Signing.** With consistent metadata the step succeeds exactly when the keys can be assigned to
the witnessed spends and all of them sign, and then these signatures are written and nothing else
is. -/
theorem signNamesIronwoodPcztCore_eq_ok_iff (h : metadata.Consistent pczt)
    (hroles : SignsListed pczt signature) :
    signNamesIronwoodPcztCore pczt metadata plan = .ok signed ↔
      (∃ signer, Roles.newSigner pczt = .ok signer) ∧ ∃ targets sigs actions,
        Assigns metadata.witnessedActionIndices metadata.witnessedActionIndices
          (signingRequests plan.spends) targets ∧
        List.Forall₂ (Authorizes signature) targets sigs ∧
        Writes PcztAction.setSignature sigs pczt.actions actions ∧
        signed = { pczt with actions := actions } := by
  have hrange : ∀ targets, Assigns metadata.witnessedActionIndices metadata.witnessedActionIndices
      (signingRequests plan.spends) targets → ∀ target ∈ targets,
        target.1 < pczt.actions.length := by
    intro targets hassigns target htarget
    obtain ⟨nullifier, -, hmem⟩ := hassigns.exists_request h.indices_nodup (List.Subset.refl _)
      (show (target.1, target.2) ∈ targets from htarget)
    obtain ⟨action, haction, -⟩ := h.witnessed _ hmem
    exact (List.getElem?_eq_some_iff.1 haction).1
  simp only [signNamesIronwoodPcztCore, Except.bind_eq_ok_iff, signingTargets_eq_ok_iff h,
    BuilderError.during_eq_ok_iff, pure, Except.pure, Except.ok.injEq]
  constructor
  · rintro ⟨targets, hassigns, signer, hsigner, final, hfinal, checked, -, rfl⟩
    obtain ⟨sigs, actions, hsigs, heq, hwrites⟩ := signAll_writes hroles (.new hsigner)
      (hrange targets hassigns) (hassigns.nodup h.indices_nodup (List.Sublist.refl _)) hfinal
    rw [hroles.created signer hsigner] at heq hwrites
    exact ⟨⟨signer, hsigner⟩, targets, sigs, actions, hassigns, hsigs, hwrites, heq⟩
  · rintro ⟨⟨signer, hsigner⟩, targets, sigs, actions, hassigns, hsigs, hwrites, rfl⟩
    have hnodup := hassigns.nodup h.indices_nodup (List.Sublist.refl _)
    obtain ⟨final, hfinal⟩ := exists_signAll hroles (.new hsigner) (hrange targets hassigns)
      (fun target htarget ↦ by
        obtain ⟨sig, -, hauthorizes⟩ := exists_right_of_forall₂ hsigs htarget
        rw [hauthorizes.2]
        rfl)
    obtain ⟨sigs', actions', hsigs', heq, hwrites'⟩ := signAll_writes hroles (.new hsigner)
      (hrange targets hassigns) hnodup hfinal
    rw [hroles.created signer hsigner] at heq hwrites'
    obtain rfl := authorized_unique hsigs hsigs'
    obtain rfl := hwrites.unique_of_perm hwrites' (List.Perm.refl _)
    have hcovers : (sigs.map Prod.fst).Perm (metadata.witnessedActionIndices.map Prod.snd) := by
      rw [map_fst_of_authorizes hsigs]
      exact hassigns.covers
    refine ⟨targets, hassigns, signer, hsigner, final, hfinal, (), ?_, heq⟩
    rw [heq]
    exact checkSigned_eq_ok h hcovers hwrites

/-- A key signs the spend that the metadata lists under its nullifier. -/
def AllSign (signature : ℕ → Roles.SpendAuthorizingKey → Option (Vector UInt8 64))
    (metadata : NamesSigningMetadata) (plan : NamesSigningPlan) : Prop :=
  ∀ entry ∈ metadata.witnessedActionIndices, ∀ signingKey ∈ plan.spends,
    signingKey.nullifier = entry.1 → (signature entry.2 signingKey.ask).isSome = true

/-- **When signing succeeds.** -/
theorem exists_signed_iff (h : metadata.Consistent pczt) (hroles : SignsListed pczt signature) :
    (∃ signed, signNamesIronwoodPcztCore pczt metadata plan = .ok signed) ↔
      (plan.spends.map NamesIronwoodSigningKey.nullifier).Perm
          (metadata.witnessedActionIndices.map Prod.fst) ∧
        (∃ signer, Roles.newSigner pczt = .ok signer) ∧ AllSign signature metadata plan := by
  simp only [signNamesIronwoodPcztCore_eq_ok_iff h hroles]
  rw [← exists_signingTargets_iff h]
  simp only [signingTargets_eq_ok_iff h]
  constructor
  · rintro ⟨signed, hsigner, targets, sigs, actions, hassigns, hsigs, -⟩
    refine ⟨⟨targets, hassigns⟩, hsigner, fun entry hentry signingKey hkey hnullifier ↦ ?_⟩
    obtain ⟨ask, hrequest, htarget⟩ :=
      hassigns.exists_payload h.indices_nodup (List.Subset.refl _)
        (show (entry.1, entry.2) ∈ _ from hentry)
    -- the key of the plan under this nullifier is the one that is assigned
    have hkeys : ((signingRequests plan.spends).map Prod.fst).Nodup := by
      rw [signingRequests_keys]
      exact ((exists_signingTargets_iff h).1
        ⟨targets, (signingTargets_eq_ok_iff h).2 hassigns⟩).nodup_iff.2 h.nullifiers_nodup
    have hsame : (entry.1, ask) = (signingKey.nullifier, signingKey.ask) :=
      List.inj_on_of_nodup_map hkeys hrequest (List.mem_map_of_mem hkey) hnullifier.symm
    obtain ⟨sig, -, -, hsig⟩ := exists_right_of_forall₂ hsigs htarget
    rw [← (Prod.mk.inj hsame).2, show signature entry.2 ask = some sig.2 from hsig]
    rfl
  · rintro ⟨⟨targets, hassigns⟩, hsigner, hall⟩
    have hsome : ∀ target ∈ targets, ∃ sig, Authorizes signature target sig := by
      intro target htarget
      obtain ⟨nullifier, hrequest, hmem⟩ := hassigns.exists_request h.indices_nodup
        (List.Subset.refl _) (show (target.1, target.2) ∈ targets from htarget)
      obtain ⟨signingKey, hkey, heq⟩ := List.mem_map.1 hrequest
      obtain ⟨hnullifier, hask⟩ := Prod.mk.inj heq
      obtain ⟨sig, hsig⟩ := Option.isSome_iff_exists.1 (hall _ hmem signingKey hkey hnullifier)
      exact ⟨(target.1, sig), rfl, hask ▸ hsig⟩
    obtain ⟨sigs, hsigs⟩ := exists_forall₂ hsome
    have hnodup : (sigs.map Prod.fst).Nodup := by
      rw [map_fst_of_authorizes hsigs]
      exact hassigns.nodup h.indices_nodup (List.Sublist.refl _)
    exact ⟨_, hsigner, targets, sigs, _, hassigns, hsigs, writes_writeAll hnodup pczt.actions, rfl⟩

/-- What signing did to the bundle: a witnessed spend got the signature of the key for its
nullifier, any other action is as it was. -/
structure Signed (signature : ℕ → Roles.SpendAuthorizingKey → Option (Vector UInt8 64))
    (metadata : NamesSigningMetadata) (plan : NamesSigningPlan) (pczt signed : Pczt) : Prop where
  rest : signed = { pczt with actions := signed.actions }
  length : signed.actions.length = pczt.actions.length
  real : ∀ entry ∈ metadata.witnessedActionIndices, ∃ signingKey ∈ plan.spends,
    signingKey.nullifier = entry.1 ∧ ∃ action sig, pczt.actions[entry.2]? = some action ∧
      signature entry.2 signingKey.ask = some sig ∧
      signed.actions[entry.2]? = some { action with spendAuthSig := some sig }
  others : ∀ i, i ∉ metadata.witnessedActionIndices.map Prod.snd →
    signed.actions[i]? = pczt.actions[i]?

theorem signed_of_eq_ok (h : metadata.Consistent pczt) (hroles : SignsListed pczt signature)
    (hsigned : signNamesIronwoodPcztCore pczt metadata plan = .ok signed) :
    Signed signature metadata plan pczt signed := by
  obtain ⟨-, targets, sigs, actions, hassigns, hsigs, hwrites, rfl⟩ :=
    (signNamesIronwoodPcztCore_eq_ok_iff h hroles).1 hsigned
  refine ⟨rfl, hwrites.length_eq, fun entry hentry ↦ ?_, fun i hi ↦ hwrites.unlisted i ?_⟩
  · obtain ⟨ask, hrequest, htarget⟩ :=
      hassigns.exists_payload h.indices_nodup (List.Subset.refl _)
        (show (entry.1, entry.2) ∈ _ from hentry)
    obtain ⟨signingKey, hkey, heq⟩ := List.mem_map.1 hrequest
    obtain ⟨hnullifier, rfl⟩ := Prod.mk.inj heq
    obtain ⟨action, haction, -⟩ := h.witnessed entry hentry
    obtain ⟨⟨index, sig⟩, hsig, hslot, hauthorizes⟩ := exists_right_of_forall₂ hsigs htarget
    refine ⟨signingKey, hkey, hnullifier, action, sig, haction, hauthorizes, ?_⟩
    have hlisted := hwrites.listed (index, sig) hsig
    rw [show index = entry.2 from hslot, haction] at hlisted
    exact hlisted
  · rw [map_fst_of_authorizes hsigs, hassigns.covers.mem_iff]
    exact hi

omit [Roles] in
theorem NamesSigningMetadata.Consistent.of_perm (h : metadata.Consistent pczt)
    {indices : List (Bytes32 × ℕ)} (hperm : indices.Perm metadata.witnessedActionIndices) :
    { metadata with witnessedActionIndices := indices }.Consistent pczt :=
  { h with
    witnessed := fun entry hentry ↦ h.witnessed entry (hperm.mem_iff.1 hentry)
    nullifiers_nodup := (hperm.map Prod.fst).nodup_iff.2 h.nullifiers_nodup
    indices_nodup := (hperm.map Prod.snd).nodup_iff.2 h.indices_nodup
    realSpendCount := hperm.length_eq.trans h.realSpendCount }

/-- **The order of neither plan matters**: not that of the signing plan, and not that of the
metadata, which is the order of the witness plan. -/
theorem signed_of_perm (h : metadata.Consistent pczt) (hroles : SignsListed pczt signature)
    {indices : List (Bytes32 × ℕ)} (hindices : indices.Perm metadata.witnessedActionIndices)
    {plan' : NamesSigningPlan} (hperm : plan'.spends.Perm plan.spends)
    (hsigned : signNamesIronwoodPcztCore pczt metadata plan = .ok signed) :
    signNamesIronwoodPcztCore pczt { metadata with witnessedActionIndices := indices } plan' =
      .ok signed := by
  obtain ⟨hsigner, targets, sigs, actions, hassigns, hsigs, hwrites, rfl⟩ :=
    (signNamesIronwoodPcztCore_eq_ok_iff h hroles).1 hsigned
  obtain ⟨targets', hassigns', htargets⟩ :=
    hassigns.exists_perm (show (signingRequests plan'.spends).Perm
      (signingRequests plan.spends) from
      hperm.map _)
  obtain ⟨sigs', hsigs', hsigsPerm⟩ := List.perm_comp_forall₂ htargets hsigs
  have hnodup : (sigs'.map Prod.fst).Nodup := by
    rw [map_fst_of_authorizes hsigs']
    exact hassigns'.nodup h.indices_nodup (List.Sublist.refl _)
  have hwrites' : Writes PcztAction.setSignature sigs' pczt.actions
      (writeAll PcztAction.setSignature sigs' pczt.actions) :=
    writes_writeAll hnodup pczt.actions
  rw [hwrites.unique_of_perm hwrites' hsigsPerm] at hwrites'
  exact (signNamesIronwoodPcztCore_eq_ok_iff (h.of_perm hindices) hroles).2
    ⟨hsigner, targets', sigs', actions, hassigns'.of_table_perm hindices hindices, hsigs', hwrites',
      rfl⟩

end Signing

end CoppiceNames
