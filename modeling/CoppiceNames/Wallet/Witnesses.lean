import CoppiceNames.Wallet.Pczt

/-!
# Installing witnesses

`install_names_ironwood_witnesses` of `builder.rs`. The builder shuffles the actions, and the real
spends of a finalized PCZT are the ones without a witness; the plan of the wallet names them by
nullifier. Each planned witness is looked up on its own, and only at the end are the indices found
compared with those of the real spends.
-/

namespace CoppiceNames

/-- `NamesFinalizedPczt`. -/
structure NamesFinalizedPczt extends PcztMetadata where
  pczt : Pczt

/-- `NamesIronwoodWitness`. -/
structure NamesIronwoodWitness where
  nullifier : Bytes32
  merklePath : MerklePath

/-- `NamesWitnessPlan`. -/
structure NamesWitnessPlan where
  anchor : PallasBase
  spends : List NamesIronwoodWitness

/-- `NamesWitnessedPczt`. -/
structure NamesWitnessedPczt extends PcztMetadata where
  pczt : Pczt
  anchor : PallasBase
  /-- Nullifiers and final action indices, in the order of the witness plan. -/
  witnessedActionIndices : List (Bytes32 × ℕ)

/-- `real_action_indices`. -/
def realActionIndices (actions : List PcztAction) : List ℕ :=
  (actions.zipIdx.filter fun entry ↦ entry.1.witness = none).map Prod.snd

/-- `dummy_state`. -/
def dummyState (actions : List PcztAction) :
    List (ℕ × StoredWitness × Option (Vector UInt8 64)) :=
  actions.zipIdx.filterMap fun entry ↦
    entry.1.witness.map fun witness ↦ (entry.2, witness, entry.1.spendAuthSig)

/-- The loop over the planned witnesses. The three vectors that it fills are read off the resolved
entries: what goes to the Updater, what is expected afterwards, and what later steps are told. -/
def resolveWitnesses (actions : List PcztAction) (resolved : List (ℕ × NamesIronwoodWitness)) :
    List NamesIronwoodWitness → Except BuilderError (List (ℕ × NamesIronwoodWitness))
  | [] => .ok resolved
  | witness :: rest =>
    match actions.zipIdx.filter fun entry ↦ entry.1.nullifier = witness.nullifier with
    | [] => .error (.failed ("Ironwood witness nullifier is absent from the PCZT: " ++
        debugHex witness.nullifier))
    | (action, actionIndex) :: more => do
      BuilderError.ensure (more.isEmpty = true)
        "Ironwood witness nullifier occurs more than once in the PCZT"
      BuilderError.ensure (action.witness = none)
        "Ironwood witness target already has a witness (or is a padding spend)"
      BuilderError.ensure (actionIndex ∉ resolved.map Prod.fst)
        "witness plan contains duplicate Ironwood spend targets"
      resolveWitnesses actions (resolved ++ [(actionIndex, witness)]) rest

/-- The checks before the Updater, and the resolved plan. -/
def resolveWitnessPlan (finalized : NamesFinalizedPczt) (spends : List NamesIronwoodWitness) :
    Except BuilderError (List (ℕ × NamesIronwoodWitness)) := do
  let actions := finalized.pczt.actions
  BuilderError.ensure (actions.length = finalized.actionCount)
    "pre-update Ironwood action count changed"
  let valueSum ← valueSumParts finalized.ironwoodValueBalance
  BuilderError.ensure (finalized.pczt.valueSum = valueSum)
    "pre-update Ironwood value balance changed"
  BuilderError.ensure ((realActionIndices actions).length = finalized.realSpendCount)
    "unexpected number of unwitnessed real Ironwood spends"
  BuilderError.ensure (spends.length = (realActionIndices actions).length)
    "witness plan does not cover exactly the real Ironwood spends"
  let resolved ← resolveWitnesses actions [] spends
  BuilderError.ensure ((resolved.map Prod.fst).mergeSort = realActionIndices actions)
    "witness plan did not resolve exactly the real Ironwood spends"
  return resolved

/-- The checks after the Updater. -/
def checkUpdated (finalized : NamesFinalizedPczt) (anchor : PallasBase)
    (beforeActionLayout : List (Bytes32 × Bytes32)) (resolved : List (ℕ × NamesIronwoodWitness))
    (pczt : Pczt) : Except BuilderError Unit := do
  BuilderError.ensure (pczt.anchor = some anchor.toRepr)
    "Updater did not install the requested Ironwood anchor"
  BuilderError.ensure (pczt.actions.length = finalized.pczt.actions.length)
    "Updater changed the Ironwood action count"
  let layout ← embeddedActionLayout pczt
  BuilderError.ensure (layout = beforeActionLayout)
    "Updater changed the ordered Ironwood action layout"
  let valueSum ← valueSumParts finalized.ironwoodValueBalance
  BuilderError.ensure (pczt.valueSum = valueSum) "Updater changed the Ironwood value balance"
  verifyEmbeddedDesignatedAction pczt finalized.designatedActionIndex finalized.designatedNullifier
    finalized.designatedCommitment
  resolved.forM fun (actionIndex, witness) ↦ do
    let action ← pczt.action actionIndex
    BuilderError.ensure (action.witness = some witness.merklePath.stored)
      "Updater did not install the expected Ironwood witness"
  (dummyState finalized.pczt.actions).forM fun (actionIndex, witness, signature) ↦ do
    let action ← pczt.action actionIndex
    BuilderError.ensure (action.witness = some witness) "Updater changed a dummy Ironwood witness"
    BuilderError.ensure (action.spendAuthSig = signature)
      "Updater changed a dummy Ironwood spend signature"

/-- `install_names_ironwood_witnesses`. -/
def installNamesIronwoodWitnesses [Roles] (finalized : NamesFinalizedPczt)
    (plan : NamesWitnessPlan) : Except BuilderError NamesWitnessedPczt := do
  let beforeActionLayout ← embeddedActionLayout finalized.pczt
  let resolved ← resolveWitnessPlan finalized plan.spends
  let pczt ← BuilderError.during "set Names Ironwood anchor: "
    (Roles.setIronwoodAnchor finalized.pczt plan.anchor)
  let pczt ← BuilderError.during "set Names Ironwood spend witnesses: "
    (Roles.setIronwoodSpendWitnesses pczt
      (resolved.map fun entry ↦ (entry.1, entry.2.merklePath)))
  checkUpdated finalized plan.anchor beforeActionLayout resolved pczt
  return { toPcztMetadata := finalized.toPcztMetadata
           pczt := pczt
           anchor := plan.anchor
           witnessedActionIndices := resolved.map fun entry ↦ (entry.2.nullifier, entry.1) }

/-! ### Finding the spends -/

/-- The actions under their nullifiers. -/
def actionTable (actions : List PcztAction) : List (Bytes32 × ℕ) :=
  actions.zipIdx.map fun entry ↦ (entry.1.nullifier, entry.2)

/-- The real spends under their nullifiers. -/
def realSpends (actions : List PcztAction) : List (Bytes32 × ℕ) :=
  (actions.zipIdx.filter fun entry ↦ entry.1.witness = none).map fun entry ↦
    (entry.1.nullifier, entry.2)

/-- The planned witnesses under their nullifiers. -/
def witnessRequests (spends : List NamesIronwoodWitness) :
    List (Bytes32 × NamesIronwoodWitness) :=
  spends.map fun witness ↦ (witness.nullifier, witness)

variable {actions : List PcztAction} {spends : List NamesIronwoodWitness}

theorem actionTable_slots_nodup (actions : List PcztAction) :
    ((actionTable actions).map Prod.snd).Nodup := by
  rw [actionTable, List.map_map]
  show (actions.zipIdx.map Prod.snd).Nodup
  rw [List.zipIdx_map_snd]
  exact List.nodup_range'

theorem actionTable_keys (actions : List PcztAction) :
    (actionTable actions).map Prod.fst = actions.map PcztAction.nullifier := by
  rw [actionTable, List.map_map]
  show actions.zipIdx.map (PcztAction.nullifier ∘ Prod.fst) = _
  rw [← List.map_map, List.zipIdx_map_fst]

theorem realSpends_sublist (actions : List PcztAction) :
    (realSpends actions).Sublist (actionTable actions) :=
  List.filter_sublist.map _

theorem realSpends_slots (actions : List PcztAction) :
    (realSpends actions).map Prod.snd = realActionIndices actions := by
  rw [realSpends, List.map_map]
  rfl

theorem realSpends_keys (actions : List PcztAction) :
    (realSpends actions).map Prod.fst =
      (actions.filter fun action ↦ action.witness = none).map PcztAction.nullifier := by
  conv_rhs => rw [← List.zipIdx_map_fst 0 actions, List.filter_map]
  rw [realSpends, List.map_map, List.map_map]
  rfl

theorem mem_realSpends {nullifier : Bytes32} {index : ℕ} :
    (nullifier, index) ∈ realSpends actions ↔
      ∃ action, actions[index]? = some action ∧ action.nullifier = nullifier ∧
        action.witness = none := by
  simp only [realSpends, List.mem_map, List.mem_filter, Prod.mk.injEq, Prod.exists,
    List.mk_mem_zipIdx_iff_getElem?, decide_eq_true_eq]
  constructor
  · rintro ⟨action, i, ⟨haction, hwitness⟩, hnullifier, rfl⟩
    exact ⟨action, haction, hnullifier, hwitness⟩
  · rintro ⟨action, haction, hnullifier, hwitness⟩
    exact ⟨action, index, ⟨haction, hwitness⟩, hnullifier, rfl⟩

theorem slotsOf_actionTable (actions : List PcztAction) (nullifier : Bytes32) :
    slotsOf (actionTable actions) nullifier =
      (actions.zipIdx.filter fun entry ↦ entry.1.nullifier = nullifier).map Prod.snd := by
  rw [slotsOf, actionTable, List.filter_map, List.map_map]
  rfl

/-- The indices of the real spends are in order. -/
theorem realActionIndices_sorted (actions : List PcztAction) :
    (realActionIndices actions).Pairwise (· ≤ ·) := by
  have hsublist : (realActionIndices actions).Sublist (actions.zipIdx.map Prod.snd) :=
    List.filter_sublist.map _
  rw [List.zipIdx_map_snd] at hsublist
  have hrange : (List.range' 0 actions.length).Pairwise (· ≤ ·) := List.pairwise_le_range'
  exact hrange.sublist hsublist

/-- An index of an action without a witness. -/
def Unwitnessed (actions : List PcztAction) (index : ℕ) : Prop :=
  ∃ action, actions[index]? = some action ∧ action.witness = none

/-- **The loop over the planned witnesses** resolves them to actions without a witness. -/
theorem resolveWitnesses_eq_ok_iff {resolved result : List (ℕ × NamesIronwoodWitness)}
    (hnodup : (resolved.map Prod.fst).Nodup)
    (hresolved : ∀ entry ∈ resolved, Unwitnessed actions entry.1) :
    resolveWitnesses actions resolved spends = .ok result ↔
      ResolvedFrom (actionTable actions) resolved (witnessRequests spends) result ∧
        ∀ entry ∈ result, Unwitnessed actions entry.1 := by
  induction spends generalizing resolved with
  | nil =>
    rw [resolveWitnesses, Except.ok.injEq, show witnessRequests [] = [] from rfl,
      resolvedFrom_nil_iff hnodup]
    constructor
    · rintro rfl
      exact ⟨rfl, hresolved⟩
    · exact And.left
  | cons witness rest ih =>
    have hslots := slotsOf_actionTable actions witness.nullifier
    rw [resolveWitnesses, show witnessRequests (witness :: rest) =
      (witness.nullifier, witness) :: witnessRequests rest from rfl]
    rcases hfilter : actions.zipIdx.filter fun entry ↦ entry.1.nullifier = witness.nullifier
      with - | ⟨⟨action, index⟩, more⟩
    · -- no action has the nullifier
      rw [hfilter] at hslots ⊢
      exact iff_of_false (by simp) fun h ↦ not_resolvedFrom_cons hslots h.1
    · have hmem : (action, index) ∈
          actions.zipIdx.filter fun entry ↦ entry.1.nullifier = witness.nullifier := by
        rw [hfilter]
        exact List.mem_cons_self
      have haction : actions[index]? = some action :=
        List.mk_mem_zipIdx_iff_getElem?.1 (List.mem_of_mem_filter hmem)
      rw [hfilter] at hslots ⊢
      dsimp only
      rw [BuilderError.ensure_bind_eq_ok_iff, BuilderError.ensure_bind_eq_ok_iff,
        BuilderError.ensure_bind_eq_ok_iff, resolvedFrom_cons_iff hslots,
        List.map_eq_nil_iff, List.isEmpty_iff]
      have hextends : ∀ (hwitness : action.witness = none) (entry : ℕ × NamesIronwoodWitness),
          entry ∈ resolved ++ [(index, witness)] → Unwitnessed actions entry.1 := by
        intro hwitness entry hentry
        rcases List.mem_append.1 hentry with hold | hnew
        · exact hresolved entry hold
        · rw [List.mem_singleton.1 hnew]
          exact ⟨action, haction, hwitness⟩
      constructor
      · rintro ⟨hmore, hwitness, hfresh, hrest⟩
        obtain ⟨hfrom, hresult⟩ :=
          (ih (nodup_map_concat_iff.2 ⟨hnodup, hfresh⟩) (hextends hwitness)).1 hrest
        exact ⟨⟨hmore, hfresh, hfrom⟩, hresult⟩
      · rintro ⟨⟨hmore, hfresh, hfrom⟩, hresult⟩
        obtain ⟨action', haction', hwitness⟩ : Unwitnessed actions index :=
          hresult (index, witness) (hfrom.subset (List.mem_append_right _ List.mem_cons_self))
        rw [haction, Option.some_inj] at haction'
        subst haction'
        exact ⟨hmore, hwitness, hfresh,
          (ih (nodup_map_concat_iff.2 ⟨hnodup, hfresh⟩) (hextends hwitness)).2 ⟨hfrom, hresult⟩⟩

/-! ### Metadata and plan -/

/-- The metadata describes the PCZT. -/
structure NamesFinalizedPczt.Consistent (finalized : NamesFinalizedPczt) : Prop where
  commitments : ∀ action ∈ finalized.pczt.actions, action.cmx.isSome = true
  actionCount : finalized.pczt.actions.length = finalized.actionCount
  valueSum : valueSumParts finalized.ironwoodValueBalance = .ok finalized.pczt.valueSum
  realSpendCount : (finalized.pczt.actions.filter fun action ↦ action.witness = none).length =
    finalized.realSpendCount
  designated : verifyEmbeddedDesignatedAction finalized.pczt finalized.designatedActionIndex
    finalized.designatedNullifier finalized.designatedCommitment = .ok ()

/-- The plan names the real spends by their nullifiers, each once, and no other action has one of
these nullifiers. -/
structure NamesWitnessPlan.Matches (plan : NamesWitnessPlan)
    (actions : List PcztAction) : Prop where
  perm : (plan.spends.map NamesIronwoodWitness.nullifier).Perm
    ((actions.filter fun action ↦ action.witness = none).map PcztAction.nullifier)
  once : ∀ nullifier ∈ (actions.filter fun action ↦ action.witness = none).map PcztAction.nullifier,
    (actions.map PcztAction.nullifier).count nullifier = 1

variable {finalized : NamesFinalizedPczt} {plan : NamesWitnessPlan}
  {resolved : List (ℕ × NamesIronwoodWitness)}

theorem witnessRequests_keys (spends : List NamesIronwoodWitness) :
    (witnessRequests spends).map Prod.fst = spends.map NamesIronwoodWitness.nullifier := by
  rw [witnessRequests, List.map_map]
  rfl

/-- **The plan matches when its witnesses can be assigned to the real spends.** -/
theorem matches_iff_assigns : plan.Matches actions ↔ ∃ resolved,
    Assigns (actionTable actions) (realSpends actions) (witnessRequests plan.spends) resolved := by
  rw [exists_assigns_iff (actionTable_slots_nodup actions) (realSpends_sublist actions).subset,
    witnessRequests_keys, realSpends_keys, actionTable_keys]
  exact ⟨fun h ↦ ⟨h.perm, h.once⟩, fun h ↦ ⟨h.1, h.2⟩⟩

/-- What is assigned goes to actions without a witness. -/
theorem unwitnessed_of_assigns
    (hassigns : Assigns (actionTable actions) (realSpends actions)
      (witnessRequests spends) resolved)
    {entry : ℕ × NamesIronwoodWitness} (hentry : entry ∈ resolved) :
    Unwitnessed actions entry.1 := by
  obtain ⟨nullifier, -, hmem⟩ := hassigns.exists_request (actionTable_slots_nodup actions)
    (realSpends_sublist actions).subset (show (entry.1, entry.2) ∈ resolved from hentry)
  obtain ⟨action, haction, -, hwitness⟩ := mem_realSpends.1 hmem
  exact ⟨action, haction, hwitness⟩

/-- **The checks before the Updater** pass exactly for an assignment to the real spends. -/
theorem resolveWitnessPlan_eq_ok_iff (hconsistent : finalized.Consistent) :
    resolveWitnessPlan finalized spends = .ok resolved ↔
      Assigns (actionTable finalized.pczt.actions) (realSpends finalized.pczt.actions)
        (witnessRequests spends) resolved := by
  have hcount : (realActionIndices finalized.pczt.actions).length = finalized.realSpendCount := by
    rw [← hconsistent.realSpendCount, ← realSpends_slots, List.length_map,
      ← List.length_map (f := Prod.fst), realSpends_keys, List.length_map]
  have hsteps : resolveWitnessPlan finalized spends = .ok resolved ↔
      spends.length = (realActionIndices finalized.pczt.actions).length ∧
        resolveWitnesses finalized.pczt.actions [] spends = .ok resolved ∧
        (resolved.map Prod.fst).Perm (realActionIndices finalized.pczt.actions) := by
    rw [resolveWitnessPlan]
    simp only [BuilderError.ensure_eq_ok_iff, Except.bind_eq_ok_iff, hconsistent.valueSum,
      Except.ok.injEq, exists_eq_left', exists_const, true_and, hconsistent.actionCount, hcount,
      mergeSort_eq_iff_perm (realActionIndices_sorted finalized.pczt.actions), pure, Except.pure]
    constructor
    · rintro ⟨hlength, found, hfound, hperm, rfl⟩
      exact ⟨hlength, hfound, hperm⟩
    · rintro ⟨hlength, hfound, hperm⟩
      exact ⟨hlength, resolved, hfound, hperm, rfl⟩
  rw [hsteps, resolveWitnesses_eq_ok_iff
    (show (([] : List (ℕ × NamesIronwoodWitness)).map Prod.fst).Nodup from List.nodup_nil)
    (fun entry hentry ↦ absurd hentry List.not_mem_nil), resolvedFrom_start_iff, ← realSpends_slots]
  constructor
  · rintro ⟨-, ⟨⟨hfound, -⟩, -⟩, hperm⟩
    exact ⟨hfound, hperm⟩
  · intro h
    have hslots := actionTable_slots_nodup finalized.pczt.actions
    refine ⟨?_, ⟨⟨h.resolved, h.nodup hslots (realSpends_sublist _)⟩,
      fun _ ↦ unwitnessed_of_assigns h⟩, h.covers⟩
    have hlength := h.resolved.length_eq
    have hslotsLength := h.covers.length_eq
    rw [witnessRequests, List.length_map] at hlength
    rw [List.length_map] at hslotsLength
    rw [hlength, hslotsLength]

/-! ### Installing -/

/-- What a resolved plan lists for the Updater. -/
def updaterTargets (resolved : List (ℕ × NamesIronwoodWitness)) : List (ℕ × MerklePath) :=
  resolved.map fun entry ↦ (entry.1, entry.2.merklePath)

theorem updaterTargets_slots (resolved : List (ℕ × NamesIronwoodWitness)) :
    (updaterTargets resolved).map Prod.fst = resolved.map Prod.fst := by
  rw [updaterTargets, List.map_map]
  rfl

/-- **The checks after the Updater** pass when it wrote the listed witnesses. -/
theorem checkUpdated_eq_ok (hconsistent : finalized.Consistent) {anchor : PallasBase}
    {layout : List (Bytes32 × Bytes32)} (hlayout : embeddedActionLayout finalized.pczt = .ok layout)
    (hassigns : Assigns (actionTable finalized.pczt.actions) (realSpends finalized.pczt.actions)
      (witnessRequests spends) resolved) {actions : List PcztAction}
    (hwrites : Writes PcztAction.setWitness (updaterTargets resolved) finalized.pczt.actions
      actions) :
    checkUpdated finalized anchor layout resolved
      { finalized.pczt with anchor := some anchor.toRepr, actions := actions } = .ok () := by
  have hpairs : actions.map PcztAction.pair = finalized.pczt.actions.map PcztAction.pair :=
    hwrites.map_eq fun _ _ ↦ rfl
  have hsame : embeddedActionLayout
      { finalized.pczt with anchor := some anchor.toRepr, actions := actions } = .ok layout :=
    (embeddedActionLayout_congr hpairs).trans hlayout
  have hdesignated : verifyEmbeddedDesignatedAction
      { finalized.pczt with anchor := some anchor.toRepr, actions := actions }
      finalized.designatedActionIndex finalized.designatedNullifier finalized.designatedCommitment =
        .ok () := by
    rw [← hconsistent.designated]
    exact verifyEmbeddedDesignatedAction_congr hpairs _ _ _
  -- a planned witness is in its action
  have hexpected : (resolved.forM fun (entry : ℕ × NamesIronwoodWitness) ↦ do
      let action ← Pczt.action
        { finalized.pczt with anchor := some anchor.toRepr, actions := actions } entry.1
      BuilderError.ensure (action.witness = some entry.2.merklePath.stored)
        "Updater did not install the expected Ironwood witness") = .ok () := by
    refine List.forM_eq_ok_iff.2 fun entry hentry ↦ ?_
    obtain ⟨action, haction, -⟩ := unwitnessed_of_assigns hassigns hentry
    have hlisted := hwrites.listed (entry.1, entry.2.merklePath) (List.mem_map_of_mem hentry)
    rw [haction, Option.map_some] at hlisted
    refine Except.bind_eq_ok_iff.2 ⟨_, Pczt.action_eq_ok_iff.2 hlisted, ?_⟩
    exact BuilderError.ensure_eq_ok_iff.2 rfl
  -- an action that had a witness is not listed
  have hdummies : ((dummyState finalized.pczt.actions).forM
      fun (entry : ℕ × StoredWitness × Option (Vector UInt8 64)) ↦ do
        let action ← Pczt.action
          { finalized.pczt with anchor := some anchor.toRepr, actions := actions } entry.1
        BuilderError.ensure (action.witness = some entry.2.1)
          "Updater changed a dummy Ironwood witness"
        BuilderError.ensure (action.spendAuthSig = entry.2.2)
          "Updater changed a dummy Ironwood spend signature") = .ok () := by
    refine List.forM_eq_ok_iff.2 fun entry hentry ↦ ?_
    obtain ⟨⟨action, index⟩, hmem, hstate⟩ := List.mem_filterMap.1 hentry
    obtain ⟨witness, hwitness, rfl⟩ := Option.map_eq_some_iff.1 hstate
    have haction : finalized.pczt.actions[index]? = some action :=
      List.mk_mem_zipIdx_iff_getElem?.1 hmem
    have hunlisted : index ∉ (updaterTargets resolved).map Prod.fst := by
      intro hmem
      rw [updaterTargets_slots] at hmem
      obtain ⟨listed, hlisted, rfl⟩ := List.mem_map.1 hmem
      obtain ⟨action', haction', hnone⟩ := unwitnessed_of_assigns hassigns hlisted
      rw [haction, Option.some_inj] at haction'
      rw [← haction', hwitness] at hnone
      exact absurd hnone (by simp)
    refine Except.bind_eq_ok_iff.2 ⟨action, Pczt.action_eq_ok_iff.2 ?_, ?_⟩
    · exact (hwrites.unlisted index hunlisted).trans haction
    · exact BuilderError.ensure_bind_eq_ok_iff.2
        ⟨hwitness, BuilderError.ensure_eq_ok_iff.2 rfl⟩
  simp only [checkUpdated, BuilderError.ensure_eq_ok_iff, Except.bind_eq_ok_iff, hsame, hdesignated,
    hconsistent.valueSum, hwrites.length_eq, Except.ok.injEq, exists_eq_left', exists_const,
    true_and]
  exact ⟨(), hexpected, hdummies⟩

variable [Roles] {witnessed : NamesWitnessedPczt}

/-- The Updater takes an assignment. -/
theorem exists_updated (hroles : UpdatesListed finalized.pczt plan.anchor)
    (hassigns : Assigns (actionTable finalized.pczt.actions) (realSpends finalized.pczt.actions)
      (witnessRequests plan.spends) resolved) :
    ∃ actions, Roles.setIronwoodSpendWitnesses
          { finalized.pczt with anchor := some plan.anchor.toRepr } (updaterTargets resolved) =
        .ok { finalized.pczt with anchor := some plan.anchor.toRepr, actions := actions } ∧
      Writes PcztAction.setWitness (updaterTargets resolved) finalized.pczt.actions actions := by
  refine hroles.installs_witnesses (updaterTargets resolved) ?_ fun target htarget ↦ ?_
  · rw [updaterTargets_slots]
    exact hassigns.nodup (actionTable_slots_nodup _) (realSpends_sublist _)
  · obtain ⟨entry, hentry, rfl⟩ := List.mem_map.1 htarget
    exact unwitnessed_of_assigns hassigns hentry

/-- **Installing witnesses.** With consistent metadata the step succeeds exactly when the planned
witnesses can be assigned to the real spends, and then these are written and nothing else is. -/
theorem installNamesIronwoodWitnesses_eq_ok_iff (hconsistent : finalized.Consistent)
    (hroles : UpdatesListed finalized.pczt plan.anchor) :
    installNamesIronwoodWitnesses finalized plan = .ok witnessed ↔
      ∃ resolved actions,
        Assigns (actionTable finalized.pczt.actions) (realSpends finalized.pczt.actions)
          (witnessRequests plan.spends) resolved ∧
        Roles.setIronwoodSpendWitnesses
            { finalized.pczt with anchor := some plan.anchor.toRepr } (updaterTargets resolved) =
          .ok { finalized.pczt with anchor := some plan.anchor.toRepr, actions := actions } ∧
        Writes PcztAction.setWitness (updaterTargets resolved) finalized.pczt.actions actions ∧
        witnessed =
          { toPcztMetadata := finalized.toPcztMetadata
            pczt := { finalized.pczt with anchor := some plan.anchor.toRepr, actions := actions }
            anchor := plan.anchor
            witnessedActionIndices := resolved.map fun entry ↦ (entry.2.nullifier, entry.1) } := by
  obtain ⟨layout, hlayout⟩ := exists_embeddedActionLayout hconsistent.commitments
  simp only [installNamesIronwoodWitnesses, Except.bind_eq_ok_iff, hlayout,
    resolveWitnessPlan_eq_ok_iff hconsistent, BuilderError.during_eq_ok_iff,
    hroles.installs_anchor, Except.ok.injEq, exists_eq_left', pure, Except.pure]
  constructor
  · rintro ⟨resolved, hassigns, pczt, hpczt, checked, hchecked, rfl⟩
    obtain ⟨actions, hset, hwrites⟩ := exists_updated hroles hassigns
    obtain rfl := Except.ok.inj (hset.symm.trans hpczt)
    exact ⟨resolved, actions, hassigns, hset, hwrites, rfl⟩
  · rintro ⟨resolved, actions, hassigns, hset, hwrites, rfl⟩
    exact ⟨resolved, hassigns, _, hset, (), checkUpdated_eq_ok hconsistent hlayout hassigns hwrites,
      rfl⟩

/-- **When installing succeeds.** -/
theorem exists_installed_iff (hconsistent : finalized.Consistent)
    (hroles : UpdatesListed finalized.pczt plan.anchor) :
    (∃ witnessed, installNamesIronwoodWitnesses finalized plan = .ok witnessed) ↔
      plan.Matches finalized.pczt.actions := by
  simp only [installNamesIronwoodWitnesses_eq_ok_iff hconsistent hroles]
  rw [matches_iff_assigns]
  constructor
  · rintro ⟨witnessed, resolved, actions, hassigns, -⟩
    exact ⟨resolved, hassigns⟩
  · rintro ⟨resolved, hassigns⟩
    obtain ⟨actions, hset, hwrites⟩ := exists_updated hroles hassigns
    exact ⟨_, resolved, actions, hassigns, hset, hwrites, rfl⟩

/-- What installing did to the bundle: a real spend got the path planned for its nullifier, any
other action is as it was. -/
structure NamesWitnessedPczt.Installed (witnessed : NamesWitnessedPczt)
    (finalized : NamesFinalizedPczt) (plan : NamesWitnessPlan) : Prop where
  rest : witnessed.pczt = { finalized.pczt with
    anchor := some plan.anchor.toRepr, actions := witnessed.pczt.actions }
  length : witnessed.pczt.actions.length = finalized.pczt.actions.length
  real : ∀ (i : ℕ) (action : PcztAction), finalized.pczt.actions[i]? = some action →
    action.witness = none → ∃ planned ∈ plan.spends, planned.nullifier = action.nullifier ∧
      witnessed.pczt.actions[i]? =
        some { action with witness := some planned.merklePath.stored }
  dummy : ∀ (i : ℕ) (action : PcztAction), finalized.pczt.actions[i]? = some action →
    action.witness ≠ none → witnessed.pczt.actions[i]? = some action

theorem installed_of_eq_ok (hconsistent : finalized.Consistent)
    (hroles : UpdatesListed finalized.pczt plan.anchor)
    (h : installNamesIronwoodWitnesses finalized plan = .ok witnessed) :
    witnessed.Installed finalized plan := by
  obtain ⟨resolved, actions, hassigns, -, hwrites, rfl⟩ :=
    (installNamesIronwoodWitnesses_eq_ok_iff hconsistent hroles).1 h
  have hslots := actionTable_slots_nodup finalized.pczt.actions
  have hwanted := (realSpends_sublist finalized.pczt.actions).subset
  refine ⟨rfl, hwrites.length_eq, fun i action haction hwitness ↦ ?_,
    fun i action haction hwitness ↦ ?_⟩
  · obtain ⟨planned, hrequest, hlisted⟩ := hassigns.exists_payload hslots hwanted
      (mem_realSpends.2 ⟨action, haction, rfl, hwitness⟩)
    obtain ⟨found, hfound, heq⟩ := List.mem_map.1 hrequest
    obtain ⟨hnullifier, rfl⟩ := Prod.mk.inj heq
    refine ⟨found, hfound, hnullifier, ?_⟩
    show actions[i]? = _
    rw [hwrites.listed (i, found.merklePath) (List.mem_map_of_mem hlisted), haction]
    rfl
  · refine (hwrites.unlisted i fun hmem ↦ ?_).trans haction
    rw [updaterTargets_slots] at hmem
    obtain ⟨listed, hlisted, rfl⟩ := List.mem_map.1 hmem
    obtain ⟨action', haction', hnone⟩ := unwitnessed_of_assigns hassigns hlisted
    rw [haction, Option.some_inj] at haction'
    exact hwitness (haction' ▸ hnone)

/-- **The order of the plan does not matter.** -/
theorem installed_of_perm (hconsistent : finalized.Consistent)
    (hroles : UpdatesListed finalized.pczt plan.anchor) {plan' : NamesWitnessPlan}
    (hanchor : plan'.anchor = plan.anchor) (hperm : plan'.spends.Perm plan.spends)
    (h : installNamesIronwoodWitnesses finalized plan = .ok witnessed) :
    ∃ witnessed', installNamesIronwoodWitnesses finalized plan' = .ok witnessed' ∧
      witnessed'.pczt = witnessed.pczt ∧
      witnessed'.witnessedActionIndices.Perm witnessed.witnessedActionIndices := by
  obtain ⟨resolved, actions, hassigns, -, hwrites, rfl⟩ :=
    (installNamesIronwoodWitnesses_eq_ok_iff hconsistent hroles).1 h
  obtain ⟨resolved', hassigns', hresolved⟩ :=
    hassigns.exists_perm (show (witnessRequests plan'.spends).Perm
      (witnessRequests plan.spends) from
      hperm.map _)
  have hroles' : UpdatesListed finalized.pczt plan'.anchor := hanchor ▸ hroles
  obtain ⟨actions', hset', hwrites'⟩ := exists_updated hroles' hassigns'
  have hactions : actions' = actions := hwrites.unique_of_perm hwrites' (hresolved.map _)
  refine ⟨_, (installNamesIronwoodWitnesses_eq_ok_iff hconsistent hroles').2
    ⟨resolved', actions', hassigns', hset', hwrites', rfl⟩, ?_, hresolved.map _⟩
  rw [hanchor, hactions]

end CoppiceNames
