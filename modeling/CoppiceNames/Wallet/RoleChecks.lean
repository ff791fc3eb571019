import CoppiceNames.Wallet.Bundle

/-!
# Steps around untrusted roles

The steps of `builder.rs` trust no role: each records what it hands over and compares it with what
comes back. Here each step has one lemma that assumes nothing of the role.

The relation that runs through the steps is that a PCZT shows a layout under its metadata
(`Pczt.Shows`). A step does not panic on what the step before ensures, and what it returns shows the
same layout under the same metadata.
-/

namespace CoppiceNames

/-! ### Rules for the checks -/

/-- An error is a message, not a panic. -/
def BuilderError.Reported (e : BuilderError) : Prop := e ≠ .panicked

namespace BuilderError

variable {A : Type}

theorem reported_failed (message : String) : (failed message).Reported := by
  rintro ⟨⟩

theorem ensures_ensure (holds : Prop) [Decidable holds] (message : String) :
    (ensure holds message).Ensures Reported fun _ ↦ holds := by
  rw [ensure]
  split
  · assumption
  · exact reported_failed message

theorem ensures_during (step : String) (result : Except String A) :
    (during step result).Ensures Reported fun a ↦ result = .ok a := by
  rcases result with e | a
  · exact reported_failed _
  · rfl

theorem ensures_context (message : String) (result : Except String A) :
    (context message result).Ensures Reported fun a ↦ result = .ok a := by
  rcases result with e | a
  · exact reported_failed _
  · rfl

theorem ensures_required (message : String) (value : Option A) :
    (required message value).Ensures Reported fun a ↦ value = some a := by
  rcases value with - | a
  · exact reported_failed _
  · rfl

end BuilderError

open BuilderError

variable {pczt : Pczt}

/-- An index in range does not panic. -/
theorem Pczt.ensures_action {index : ℕ} (h : index < pczt.actions.length) :
    (pczt.action index).Ensures Reported fun action ↦ pczt.actions[index]? = some action := by
  rw [Pczt.action, List.getElem?_eq_getElem h]
  exact Except.ensures_ok_iff.2 rfl

theorem ensures_embeddedActionLayout (pczt : Pczt) :
    (embeddedActionLayout pczt).Ensures Reported fun layout ↦
      embeddedActionLayout pczt = .ok layout := by
  have h : (embeddedActionLayout pczt).Ensures Reported
      (List.Forall₂ (fun _ _ ↦ True) pczt.actions) := by
    refine Except.ensures_mapM fun action _ ↦ ?_
    split
    · exact reported_failed _
    · exact trivial
  exact h.value.mono fun _ ↦ And.left

theorem ensures_valueSumParts (valueBalance : Int64) :
    (valueSumParts valueBalance).Ensures Reported fun valueSum ↦
      valueSumParts valueBalance = .ok valueSum := by
  have h : (valueSumParts valueBalance).Ensures Reported fun _ ↦ True := by
    rw [valueSumParts]
    split
    · split
      · exact reported_failed _
      · exact trivial
    · exact trivial
  exact h.value.mono fun _ ↦ And.left

theorem ensures_verifyEmbeddedDesignatedAction (pczt : Pczt) (actionIndex : U32)
    (nullifier commitment : Bytes32) :
    (verifyEmbeddedDesignatedAction pczt actionIndex nullifier commitment).Ensures Reported fun _ ↦
      verifyEmbeddedDesignatedAction pczt actionIndex nullifier commitment = .ok () := by
  have h : (verifyEmbeddedDesignatedAction pczt actionIndex nullifier commitment).Ensures Reported
      fun _ ↦ True := by
    rw [verifyEmbeddedDesignatedAction]
    split
    · exact reported_failed _
    · refine (ensures_ensure _ _).bind fun _ _ ↦ ?_
      split
      · exact reported_failed _
      · exact (ensures_ensure _ _).bind fun _ _ ↦ (ensures_ensure _ _).mono fun _ _ ↦ trivial
  exact h.value.mono fun _ ↦ And.left

/-! ### What a PCZT shows -/

/-- A PCZT shows a layout under its metadata: as many actions and the value balance that the
metadata says, and the designated pair once and in its place. -/
structure Pczt.Shows (pczt : Pczt) (metadata : PcztMetadata) (layout : List (Bytes32 × Bytes32)) :
    Prop where
  layout_eq : embeddedActionLayout pczt = .ok layout
  actionCount : pczt.actions.length = metadata.actionCount
  valueSum : valueSumParts metadata.ironwoodValueBalance = .ok pczt.valueSum
  designated : verifyEmbeddedDesignatedAction pczt metadata.designatedActionIndex
    metadata.designatedNullifier metadata.designatedCommitment = .ok ()

variable {layout : List (Bytes32 × Bytes32)} {metadata : PcztMetadata}

theorem embeddedActionLayout_eq_ok_iff : embeddedActionLayout pczt = .ok layout ↔
    pczt.actions.map PcztAction.pair = layout.map fun entry ↦ (entry.1, some entry.2) := by
  rw [embeddedActionLayout, Except.mapM_eq_ok_iff, ← List.forall₂_eq_eq_eq,
    List.forall₂_map_left_iff, List.forall₂_map_right_iff]
  constructor
  · intro h
    refine h.imp fun action entry hentry ↦ ?_
    split at hentry
    · exact absurd hentry (by simp)
    · rename_i commitment hcmx
      rw [PcztAction.pair, hcmx, ← Except.ok.inj hentry]
  · intro h
    refine h.imp fun action entry hentry ↦ ?_
    obtain ⟨hnullifier, hcmx⟩ := Prod.mk.inj hentry
    rw [hcmx, hnullifier]

namespace Pczt.Shows

theorem length_layout (h : pczt.Shows metadata layout) : layout.length = metadata.actionCount := by
  have hlength := congrArg List.length (embeddedActionLayout_eq_ok_iff.1 h.layout_eq)
  rw [List.length_map, List.length_map] at hlength
  rw [← hlength, h.actionCount]

/-- The nullifiers of the layout are those of the actions. -/
theorem nullifiers (h : pczt.Shows metadata layout) :
    layout.map Prod.fst = pczt.actions.map PcztAction.nullifier := by
  have hfirst := congrArg (List.map Prod.fst) (embeddedActionLayout_eq_ok_iff.1 h.layout_eq)
  rw [List.map_map, List.map_map] at hfirst
  exact hfirst.symm

/-- **The designated pair** is in the layout, once and in its place. -/
theorem designated_mem (h : pczt.Shows metadata layout) :
    layout[metadata.designatedActionIndex.val]? =
        some (metadata.designatedNullifier, metadata.designatedCommitment) ∧
      layout.count (metadata.designatedNullifier, metadata.designatedCommitment) = 1 := by
  have hpairs := embeddedActionLayout_eq_ok_iff.1 h.layout_eq
  have hdesignated := h.designated
  rw [verifyEmbeddedDesignatedAction] at hdesignated
  split at hdesignated
  · exact absurd hdesignated (by simp)
  rename_i action haction
  rw [ensure_bind_eq_ok_iff] at hdesignated
  obtain ⟨hnullifier, hdesignated⟩ := hdesignated
  split at hdesignated
  · exact absurd hdesignated (by simp)
  rename_i commitment hcmx
  rw [ensure_bind_eq_ok_iff, BuilderError.ensure_eq_ok_iff] at hdesignated
  obtain ⟨rfl, hcount⟩ := hdesignated
  constructor
  · have hat := congrArg (fun pairs ↦ pairs[metadata.designatedActionIndex.val]?) hpairs
    rw [List.getElem?_map, List.getElem?_map, haction, Option.map_some, PcztAction.pair, hnullifier,
      hcmx, eq_comm, Option.map_eq_some_iff] at hat
    obtain ⟨entry, hentry, heq⟩ := hat
    obtain ⟨hfirst, hsecond⟩ := Prod.mk.inj heq
    rw [hentry, ← hfirst, ← Option.some.inj hsecond]
  · have hfilter : (pczt.actions.map PcztAction.pair).countP (fun pair ↦
        pair.1 = metadata.designatedNullifier ∧
          pair.2 = some metadata.designatedCommitment) = 1 := by
      rw [List.countP_map, List.countP_eq_length_filter]
      exact hcount
    rw [hpairs, List.countP_map] at hfilter
    rw [List.count, ← hfilter]
    refine List.countP_congr fun entry _ ↦ ?_
    simp [Prod.ext_iff]

end Pczt.Shows

/-! ### The bundle and its PCZT -/

section Assembled

variable [Orchard] [Assembly] {plan : NamesIronwoodPlan}

/-- What the shape of a plan is read off. -/
structure NamesIronwoodShape.Of (shape : NamesIronwoodShape) (plan : NamesIronwoodPlan) :
    Prop where
  realSpendCount : shape.realSpendCount = 1 + plan.fundingSpends.length
  actionCount : Assembly.numActions (1 + plan.fundingSpends.length)
    (1 + plan.carrierOutputs.length + plan.changeOutputs.length) = .ok shape.actionCount

omit [Orchard] [Assembly] in
theorem usizeCheckedAdd_eq_some_iff {a b c : ℕ} :
    usizeCheckedAdd a b = some c ↔ a + b < 2 ^ 64 ∧ a + b = c := by
  rw [usizeCheckedAdd]
  split
  · rename_i h
    rw [Option.some_inj, and_iff_right h]
  · rename_i h
    exact iff_of_false (by simp) fun hboth ↦ h hboth.1

theorem ensures_namesIronwoodShape (plan : NamesIronwoodPlan) :
    (namesIronwoodShape plan).Ensures Reported fun shape ↦ shape.Of plan := by
  refine (ensures_required _ _).bind fun realSpendCount hreal ↦ ?_
  obtain ⟨-, rfl⟩ := usizeCheckedAdd_eq_some_iff.1 hreal
  refine (ensures_ensure _ _).bind fun _ _ ↦ ?_
  refine (ensures_required _ _).bind fun requested hrequested ↦ ?_
  obtain ⟨outputs, houtputs, hrequested⟩ := Option.bind_eq_some_iff.1 hrequested
  obtain ⟨-, rfl⟩ := usizeCheckedAdd_eq_some_iff.1 houtputs
  obtain ⟨-, rfl⟩ := usizeCheckedAdd_eq_some_iff.1 hrequested
  refine (ensures_during _ _).bind fun actionCount hcount ↦ ?_
  refine (ensures_ensure _ _).bind fun _ _ ↦ ?_
  exact Except.ensures_ok_iff.2 ⟨rfl, hcount⟩

theorem ensures_verifyDesignatedAction (bundle : Assembly.Bundle) (actionIndex : ℕ)
    (nullifier commitment : Bytes32) :
    (verifyDesignatedAction bundle actionIndex nullifier commitment).Ensures Reported
      fun _ ↦ True := by
  rw [verifyDesignatedAction]
  split
  · exact reported_failed _
  · exact (ensures_ensure _ _).bind fun _ _ ↦ (ensures_ensure _ _).mono fun _ _ ↦ trivial

/-- The requests go through the builder, whatever it answers. -/
theorem ensures_requestActions (plan : NamesIronwoodPlan) :
    (requestActions plan).Ensures Reported fun builder ↦ requestActions plan = .ok builder := by
  have hcontext : ∀ (message : String) (result : Except String Assembly.Builder),
      (context message result).Ensures Reported fun _ ↦ True := fun message result ↦
    (ensures_context message result).mono fun _ _ ↦ trivial
  have h : (requestActions plan).Ensures Reported fun _ ↦ True := by
    refine (hcontext _ _).bind fun _ _ ↦ (hcontext _ _).bind fun _ _ ↦ ?_
    refine (Except.ensures_foldlM trivial fun _ _ _ _ ↦ hcontext _ _).bind fun _ _ ↦ ?_
    refine (hcontext _ _).bind fun _ _ ↦ ?_
    refine (Except.ensures_foldlM trivial fun _ _ _ _ ↦ hcontext _ _).bind fun _ _ ↦ ?_
    exact Except.ensures_foldlM trivial fun _ _ _ _ ↦ hcontext _ _
  exact h.value.mono fun _ ↦ And.left

/-- What a built bundle has from its plan. -/
structure NamesBuiltBundle.Of (built : NamesBuiltBundle) (plan : NamesIronwoodPlan)
    (rng : Assembly.Rng) : Prop where
  bonds : Orchard.noteValue plan.designatedSpend = bondZatoshis ∧
    Orchard.noteValue plan.successorNote = bondZatoshis
  carriers : ∀ carrier ∈ plan.carrierOutputs, carrier.value = 0
  rho : Assembly.noteRho plan.successorNote =
    Orchard.noteNullifier plan.designatedSpend plan.designatedFvk
  builder : ∃ builder metadata, requestActions plan = .ok builder ∧
    Assembly.valueBalance builder = .ok built.ironwoodValueBalance ∧
    Assembly.buildForPczt builder rng ⟨0, 0, plan.designatedActionIndex⟩ =
      .ok (built.bundle, metadata)
  actionCount : Assembly.numActions (1 + plan.fundingSpends.length)
    (1 + plan.carrierOutputs.length + plan.changeOutputs.length) = .ok built.actionCount
  realSpendCount : built.realSpendCount = 1 + plan.fundingSpends.length
  designatedActionIndex : built.designatedActionIndex = plan.designatedActionIndex
  designatedNullifier : built.designatedNullifier =
    Orchard.noteNullifier plan.designatedSpend plan.designatedFvk
  designatedCommitment : built.designatedCommitment = Orchard.noteCommitment plan.successorNote
  operationHeight : built.operationHeight = plan.operationHeight

/-- **`build_names_bundle`.** -/
theorem ensures_buildNamesBundle (plan : NamesIronwoodPlan) (rng : Assembly.Rng) :
    (buildNamesBundle plan rng).Ensures Reported fun built ↦ built.Of plan rng := by
  refine (ensures_namesIronwoodShape plan).bind fun shape hshape ↦ ?_
  refine (ensures_ensure _ _).bind fun _ hspend ↦ (ensures_ensure _ _).bind fun _ hsuccessor ↦ ?_
  refine (ensures_ensure _ _).bind fun _ hcarriers ↦ (ensures_ensure _ _).bind fun _ hrho ↦ ?_
  refine (ensures_requestActions plan).bind fun builder hbuilder ↦ ?_
  refine (ensures_context _ _).bind fun balance hbalance ↦ ?_
  refine (ensures_context _ _).bind fun built hbuilt ↦ ?_
  refine (ensures_ensure _ _).bind fun _ _ ↦ ?_
  refine (ensures_verifyDesignatedAction _ _ _ _).bind fun _ _ ↦ ?_
  refine (ensures_ensure _ _).bind fun _ _ ↦ (ensures_ensure _ _).bind fun _ hcount ↦ ?_
  exact Except.ensures_ok_iff.2
    { bonds := ⟨hspend, hsuccessor⟩
      carriers := hcarriers
      rho := hrho
      builder := ⟨builder, built.2, hbuilder, hbalance, hbuilt⟩
      actionCount := hshape.actionCount.trans (congrArg Except.ok hcount.symm)
      realSpendCount := hshape.realSpendCount
      designatedActionIndex := rfl
      designatedNullifier := rfl
      designatedCommitment := rfl
      operationHeight := rfl }

/-- What a built PCZT has from the bundle. -/
structure NamesBuiltPczt.Of (built : NamesBuiltPczt) (plan : NamesPcztPlan) : Prop where
  branch : Assembly.isNu6_3 plan.consensusBranchId = true
  expiry : plan.ironwood.operationHeight ≤ plan.expiryHeight
  shows_pairs : built.pczt.toPczt.Shows built.toPcztMetadata
    (Assembly.actionPairs plan.ironwood.bundle)
  designatedActionIndex : built.designatedActionIndex.val = plan.ironwood.designatedActionIndex
  designatedNullifier : built.designatedNullifier = plan.ironwood.designatedNullifier
  designatedCommitment : built.designatedCommitment = plan.ironwood.designatedCommitment
  actionCount : built.actionCount = plan.ironwood.actionCount
  realSpendCount : built.realSpendCount = plan.ironwood.realSpendCount
  ironwoodValueBalance : built.ironwoodValueBalance = plan.ironwood.ironwoodValueBalance

/-- **`build_names_pczt`.** -/
theorem ensures_buildNamesPczt (plan : NamesPcztPlan) :
    (buildNamesPczt plan).Ensures Reported fun built ↦ built.Of plan := by
  refine (ensures_ensure _ _).bind fun _ hbranch ↦ (ensures_ensure _ _).bind fun _ hexpiry ↦ ?_
  refine (ensures_required _ _).bind fun index hindex ↦ ?_
  refine (ensures_required _ _).bind fun pczt _ ↦ ?_
  refine (ensures_verifyEmbeddedDesignatedAction _ _ _ _).bind fun _ hdesignated ↦ ?_
  refine (ensures_embeddedActionLayout _).bind fun layout hlayout ↦ ?_
  refine (ensures_ensure _ _).bind fun _ hpairs ↦ (ensures_ensure _ _).bind fun _ hcount ↦ ?_
  refine (ensures_valueSumParts _).bind fun valueSum hvalueSum ↦ ?_
  refine (ensures_ensure _ _).bind fun _ hsame ↦ ?_
  subst hpairs hsame
  exact Except.ensures_ok_iff.2
    { branch := hbranch
      expiry := hexpiry
      shows_pairs := ⟨hlayout, hcount, hvalueSum, hdesignated⟩
      designatedActionIndex := U32.ofUsize_eq_some_iff.1 hindex
      designatedNullifier := rfl
      designatedCommitment := rfl
      actionCount := rfl
      realSpendCount := rfl
      ironwoodValueBalance := rfl }

/-- **`finalize_names_pczt_io`.** -/
theorem ensures_finalizeNamesPcztIo (built : NamesBuiltPczt) :
    (finalizeNamesPcztIo built).Ensures Reported fun finalized ↦
      finalized.toPcztMetadata = built.toPcztMetadata ∧
      ∀ layout, built.pczt.toPczt.Shows built.toPcztMetadata layout →
        finalized.pczt.Shows built.toPcztMetadata layout := by
  refine (ensures_embeddedActionLayout _).bind fun before hbefore ↦ ?_
  refine (ensures_ensure _ _).bind fun _ hcount ↦ ?_
  refine (ensures_valueSumParts _).bind fun valueSum hvalueSum ↦ ?_
  refine (ensures_ensure _ _).bind fun _ _ ↦ (ensures_during _ _).bind fun pczt _ ↦ ?_
  refine (ensures_ensure _ _).bind fun _ hlength ↦ ?_
  refine (ensures_embeddedActionLayout _).bind fun layout hlayout ↦ ?_
  refine (ensures_ensure _ _).bind fun _ hsame ↦ (ensures_ensure _ _).bind fun _ hvalue ↦ ?_
  refine (ensures_ensure _ _).bind fun _ _ ↦ ?_
  refine (ensures_verifyEmbeddedDesignatedAction _ _ _ _).bind fun _ hdesignated ↦ ?_
  refine Except.ensures_ok_iff.2 ⟨rfl, fun shown hshown ↦ ?_⟩
  obtain rfl : before = shown := Except.ok.inj (hbefore.symm.trans hshown.layout_eq)
  subst hsame hvalue
  exact ⟨hlayout, hlength.trans hcount, hvalueSum, hdesignated⟩

/-! ### Witnesses -/

omit [Orchard] [Assembly] in
theorem ensures_resolveWitnesses (actions : List PcztAction) (spends : List NamesIronwoodWitness)
    (resolved : List (ℕ × NamesIronwoodWitness)) :
    (resolveWitnesses actions resolved spends).Ensures Reported fun _ ↦ True := by
  induction spends generalizing resolved with
  | nil => exact trivial
  | cons witness rest ih =>
    rw [resolveWitnesses]
    split
    · exact reported_failed _
    · refine (ensures_ensure _ _).bind fun _ _ ↦ (ensures_ensure _ _).bind fun _ _ ↦ ?_
      exact (ensures_ensure _ _).bind fun _ _ ↦ ih _

omit [Orchard] [Assembly] in
theorem dummyState_lt {actions : List PcztAction}
    {entry : ℕ × StoredWitness × Option (Vector UInt8 64)} (h : entry ∈ dummyState actions) :
    entry.1 < actions.length := by
  obtain ⟨⟨action, index⟩, hmem, hstate⟩ := List.mem_filterMap.1 h
  obtain ⟨witness, -, rfl⟩ := Option.map_eq_some_iff.1 hstate
  exact (List.getElem?_eq_some_iff.1 (List.mk_mem_zipIdx_iff_getElem?.1 hmem)).1

omit [Orchard] [Assembly] in
theorem dummySignatures_lt {actions : List PcztAction} {entry : ℕ × Vector UInt8 64}
    (h : entry ∈ dummySignatures actions) : entry.1 < actions.length := by
  obtain ⟨⟨action, index⟩, hmem, hstate⟩ := List.mem_filterMap.1 h
  obtain ⟨signature, -, rfl⟩ := Option.map_eq_some_iff.1 hstate
  exact (List.getElem?_eq_some_iff.1 (List.mk_mem_zipIdx_iff_getElem?.1 hmem)).1

/-- What the witnessed indices say about the actions: they are in range and under their own
nullifiers, one for each planned witness. -/
structure WitnessedAs (pczt : Pczt) (indices : List (Bytes32 × ℕ))
    (spends : List NamesIronwoodWitness) (realSpendCount : ℕ) : Prop where
  nullifiers : indices.map Prod.fst = spends.map NamesIronwoodWitness.nullifier
  length_eq : indices.length = realSpendCount
  entries : ∀ entry ∈ indices, (pczt.actions.map PcztAction.nullifier)[entry.2]? = some entry.1

omit [Orchard] [Assembly] in
theorem WitnessedAs.lt {indices : List (Bytes32 × ℕ)} {spends : List NamesIronwoodWitness}
    {realSpendCount : ℕ} (h : WitnessedAs pczt indices spends realSpendCount)
    {entry : Bytes32 × ℕ} (hentry : entry ∈ indices) : entry.2 < pczt.actions.length := by
  have hlt := (List.getElem?_eq_some_iff.1 (h.entries entry hentry)).1
  rw [List.length_map] at hlt
  exact hlt

omit [Orchard] [Assembly] in
/-- A resolved plan lists its witnesses with the actions found for them. -/
theorem witnessedAs_of_resolved {finalized : NamesFinalizedPczt}
    {spends : List NamesIronwoodWitness} {resolved : List (ℕ × NamesIronwoodWitness)}
    (h : resolveWitnesses finalized.pczt.actions [] spends = .ok resolved)
    (hlength : resolved.length = finalized.realSpendCount) :
    WitnessedAs finalized.pczt (resolved.map fun entry ↦ (entry.2.nullifier, entry.1)) spends
        finalized.realSpendCount ∧
      ∀ entry ∈ resolved, entry.1 < finalized.pczt.actions.length := by
  obtain ⟨hfrom, hunwitnessed⟩ := (resolveWitnesses_eq_ok_iff
    (show (([] : List (ℕ × NamesIronwoodWitness)).map Prod.fst).Nodup from List.nodup_nil)
    (fun entry hentry ↦ absurd hentry List.not_mem_nil)).1 h
  obtain ⟨hresolved, -⟩ := resolvedFrom_start_iff.1 hfrom
  have hkeys : resolved.map (fun entry ↦ entry.2.nullifier) =
      spends.map NamesIronwoodWitness.nullifier := by
    have hrequests := hresolved
    rw [witnessRequests, List.forall₂_map_left_iff] at hrequests
    rw [eq_comm, ← List.forall₂_eq_eq_eq, List.forall₂_map_left_iff, List.forall₂_map_right_iff]
    exact hrequests.imp fun witness entry hentry ↦ congrArg _ hentry.2.symm
  refine ⟨⟨?_, ?_, fun entry hentry ↦ ?_⟩, fun entry hentry ↦ ?_⟩
  · rw [List.map_map]
    exact hkeys
  · rw [List.length_map, hlength]
  · obtain ⟨⟨index, witness⟩, hmem, rfl⟩ := List.mem_map.1 hentry
    rw [witnessRequests, List.forall₂_map_left_iff] at hresolved
    obtain ⟨request, -, hrequest⟩ := exists_left_of_forall₂ hresolved hmem
    obtain ⟨hslot, rfl⟩ := hrequest
    have hfound : (witness.nullifier, index) ∈ actionTable finalized.pczt.actions :=
      mem_slotsOf.1 (hslot ▸ List.mem_singleton_self index)
    obtain ⟨⟨action, index'⟩, hzip, heq⟩ := List.mem_map.1 hfound
    obtain ⟨hnullifier, rfl⟩ := Prod.mk.inj heq
    rw [List.getElem?_map, List.mk_mem_zipIdx_iff_getElem?.1 hzip, Option.map_some]
    exact congrArg some hnullifier
  · obtain ⟨action, haction, -⟩ := hunwitnessed entry hentry
    exact (List.getElem?_eq_some_iff.1 haction).1

omit [Orchard] [Assembly] in
/-- What the witnessed indices say carries over to a PCZT of the same layout. -/
theorem WitnessedAs.of_shows {pczt' : Pczt} {metadata : PcztMetadata}
    {layout : List (Bytes32 × Bytes32)} {indices : List (Bytes32 × ℕ)}
    {spends : List NamesIronwoodWitness} {realSpendCount : ℕ}
    (h : WitnessedAs pczt indices spends realSpendCount) (hbefore : pczt.Shows metadata layout)
    (hafter : pczt'.Shows metadata layout) :
    WitnessedAs pczt' indices spends realSpendCount := by
  refine ⟨h.nullifiers, h.length_eq, fun entry hentry ↦ ?_⟩
  rw [← hafter.nullifiers, hbefore.nullifiers]
  exact h.entries entry hentry

/-- **`install_names_ironwood_witnesses`**, whatever the Updater does. -/
theorem ensures_installNamesIronwoodWitnesses (finalized : NamesFinalizedPczt)
    (plan : NamesWitnessPlan) :
    (installNamesIronwoodWitnesses finalized plan).Ensures Reported fun witnessed ↦
      witnessed.toPcztMetadata = finalized.toPcztMetadata ∧ witnessed.anchor = plan.anchor ∧
      ∀ layout, finalized.pczt.Shows finalized.toPcztMetadata layout →
        witnessed.pczt.Shows finalized.toPcztMetadata layout ∧
        WitnessedAs witnessed.pczt witnessed.witnessedActionIndices plan.spends
          finalized.realSpendCount := by
  refine (ensures_embeddedActionLayout _).bind fun before hbefore ↦ ?_
  have hplan : (resolveWitnessPlan finalized plan.spends).Ensures Reported fun resolved ↦
      finalized.pczt.actions.length = finalized.actionCount ∧
      resolveWitnesses finalized.pczt.actions [] plan.spends = .ok resolved ∧
      resolved.length = finalized.realSpendCount := by
    refine (ensures_ensure _ _).bind fun _ hcount ↦ ?_
    refine (ensures_valueSumParts _).bind fun valueSum _ ↦ ?_
    refine (ensures_ensure _ _).bind fun _ _ ↦ (ensures_ensure _ _).bind fun _ hreal ↦ ?_
    refine (ensures_ensure _ _).bind fun _ _ ↦ ?_
    refine (ensures_resolveWitnesses _ _ _).value.bind fun resolved hresolved ↦ ?_
    refine (ensures_ensure _ _).bind fun _ hindices ↦ ?_
    refine Except.ensures_ok_iff.2 ⟨hcount, hresolved.1, ?_⟩
    rw [← hreal, ← hindices, List.length_mergeSort, List.length_map]
  refine hplan.bind fun resolved hresolved ↦ ?_
  obtain ⟨hcount, hfound, hlength⟩ := hresolved
  obtain ⟨hwitnessed, hrange⟩ := witnessedAs_of_resolved hfound hlength
  refine (ensures_during _ _).bind fun anchored _ ↦ (ensures_during _ _).bind fun pczt _ ↦ ?_
  have hchecks : (checkUpdated finalized plan.anchor before resolved pczt).Ensures Reported fun _ ↦
      ∀ layout, finalized.pczt.Shows finalized.toPcztMetadata layout →
        pczt.Shows finalized.toPcztMetadata layout := by
    refine (ensures_ensure _ _).bind fun _ _ ↦ (ensures_ensure _ _).bind fun _ hsize ↦ ?_
    refine (ensures_embeddedActionLayout _).bind fun layout hlayout ↦ ?_
    refine (ensures_ensure _ _).bind fun _ hsame ↦ ?_
    refine (ensures_valueSumParts _).bind fun valueSum hvalueSum ↦ ?_
    refine (ensures_ensure _ _).bind fun _ hvalue ↦ ?_
    refine (ensures_verifyEmbeddedDesignatedAction _ _ _ _).bind fun _ hdesignated ↦ ?_
    refine (Except.ensures_forM (P := fun _ ↦ True) fun entry hentry ↦ ?_).bind fun _ _ ↦ ?_
    · obtain ⟨index, witness⟩ := entry
      have hlt : index < pczt.actions.length := hsize ▸ hrange _ hentry
      refine (Pczt.ensures_action hlt).bind fun _ _ ↦ ?_
      exact (ensures_ensure _ _).mono fun _ _ ↦ trivial
    refine (Except.ensures_forM (P := fun _ ↦ True) fun entry hentry ↦ ?_).mono fun _ _ ↦ ?_
    · obtain ⟨index, witness, signature⟩ := entry
      have hlt : index < pczt.actions.length := hsize ▸ dummyState_lt hentry
      refine (Pczt.ensures_action hlt).bind fun _ _ ↦ (ensures_ensure _ _).bind fun _ _ ↦ ?_
      exact (ensures_ensure _ _).mono fun _ _ ↦ trivial
    intro shown hshown
    obtain rfl : before = shown := Except.ok.inj (hbefore.symm.trans hshown.layout_eq)
    subst hsame hvalue
    exact ⟨hlayout, hsize.trans hcount, hvalueSum, hdesignated⟩
  refine hchecks.bind fun _ hshows ↦ ?_
  refine Except.ensures_ok_iff.2 ⟨rfl, rfl, fun layout hlayout ↦ ?_⟩
  exact ⟨hshows layout hlayout, hwitnessed.of_shows hlayout (hshows layout hlayout)⟩

/-! ### The proof -/

omit [Orchard] [Assembly] in
theorem ensures_checkUnsigned {indices : List ℕ} {missing signed : String}
    (hrange : ∀ index ∈ indices, index < pczt.actions.length) :
    (checkUnsigned pczt indices missing signed).Ensures Reported fun _ ↦ True := by
  refine (Except.ensures_forM (P := fun _ ↦ True) fun index hindex ↦ ?_).mono fun _ _ ↦ trivial
  refine (Pczt.ensures_action (hrange index hindex)).bind fun _ _ ↦ ?_
  exact (ensures_ensure _ _).bind fun _ _ ↦ (ensures_ensure _ _).mono fun _ _ ↦ trivial

/-- **`prove_names_ironwood_pczt`**, whatever the Prover does. The indices have to be in range: the
step looks the actions up without a check. -/
theorem ensures_proveNamesIronwoodPczt (witnessed : NamesWitnessedPczt)
    (provingKey : Assembly.ProvingKey)
    (hrange : ∀ entry ∈ witnessed.witnessedActionIndices,
      entry.2 < witnessed.pczt.actions.length) :
    (proveNamesIronwoodPczt witnessed provingKey).Ensures Reported fun proved ↦
      proved.toPcztMetadata = witnessed.toPcztMetadata ∧ proved.anchor = witnessed.anchor ∧
      proved.witnessedActionIndices = witnessed.witnessedActionIndices ∧
      ∀ layout, witnessed.pczt.Shows witnessed.toPcztMetadata layout →
        proved.pczt.Shows witnessed.toPcztMetadata layout := by
  have hindices : ∀ index ∈ (witnessed.witnessedActionIndices.map Prod.snd).mergeSort,
      index < witnessed.pczt.actions.length := by
    intro index hindex
    obtain ⟨entry, hentry, rfl⟩ := List.mem_map.1 (List.mem_mergeSort.1 hindex)
    exact hrange entry hentry
  refine (ensures_embeddedActionLayout _).bind fun before hbefore ↦ ?_
  have hunproved : (checkUnproved witnessed).Ensures Reported fun _ ↦ True := by
    refine (ensures_ensure _ _).bind fun _ _ ↦ (ensures_ensure _ _).bind fun _ _ ↦ ?_
    refine (ensures_ensure _ _).bind fun _ _ ↦ (ensures_valueSumParts _).bind fun _ _ ↦ ?_
    refine (ensures_ensure _ _).bind fun _ _ ↦ ?_
    refine (ensures_verifyEmbeddedDesignatedAction _ _ _ _).bind fun _ _ ↦ ?_
    refine (ensures_ensure _ _).bind fun _ _ ↦ (ensures_ensure _ _).bind fun _ _ ↦ ?_
    refine (ensures_checkUnsigned hindices).bind fun _ _ ↦ ?_
    dsimp only
    split
    · exact reported_failed _
    · exact (ensures_ensure _ _).mono fun _ _ ↦ trivial
  refine hunproved.bind fun _ _ ↦ (ensures_during _ _).bind fun pczt _ ↦ ?_
  refine (ensures_required _ _).bind fun _ _ ↦ (ensures_ensure _ _).bind fun _ _ ↦ ?_
  have hproved : (checkProved witnessed pczt).Ensures Reported fun _ ↦
      ∀ layout, witnessed.pczt.Shows witnessed.toPcztMetadata layout →
        pczt.Shows witnessed.toPcztMetadata layout := by
    refine (ensures_ensure _ _).bind fun _ hsize ↦ ?_
    refine (ensures_embeddedActionLayout _).bind fun layout hlayout ↦ ?_
    refine (ensures_embeddedActionLayout _).bind fun before hbefore ↦ ?_
    refine (ensures_ensure _ _).bind fun _ hsame ↦ (ensures_ensure _ _).bind fun _ hvalue ↦ ?_
    refine (ensures_ensure _ _).bind fun _ _ ↦ ?_
    refine (ensures_verifyEmbeddedDesignatedAction _ _ _ _).bind fun _ hdesignated ↦ ?_
    refine (ensures_checkUnsigned fun index hindex ↦ hsize ▸ hindices index hindex).bind
      fun _ _ ↦ ?_
    refine (Except.ensures_forM (P := fun _ ↦ True) fun entry hentry ↦ ?_).mono fun _ _ ↦ ?_
    · have hlt : entry.1 < pczt.actions.length := hsize ▸ dummySignatures_lt hentry
      exact (Pczt.ensures_action hlt).bind fun _ _ ↦ (ensures_ensure _ _).mono fun _ _ ↦ trivial
    intro shown hshown
    obtain rfl : before = shown := Except.ok.inj (hbefore.symm.trans hshown.layout_eq)
    subst hsame
    exact ⟨hlayout, hsize.trans hshown.actionCount, hshown.valueSum.trans (congrArg _ hvalue.symm),
      hdesignated⟩
  refine hproved.bind fun _ hshows ↦ ?_
  exact Except.ensures_ok_iff.2 ⟨rfl, rfl, rfl, hshows⟩

/-! ### The signatures -/

omit [Orchard] [Assembly] in
/-- **The loop over the witness metadata** checks it against the PCZT. -/
theorem ensures_checkWitnessed {prior entries : List (Bytes32 × ℕ)}
    (hnullifiers : (prior.map Prod.fst).Nodup) (hindices : (prior.map Prod.snd).Nodup) :
    (checkWitnessed pczt prior entries).Ensures Reported fun _ ↦
      (∀ entry ∈ entries, ∃ action, pczt.actions[entry.2]? = some action ∧
        action.nullifier = entry.1) ∧
      ((prior ++ entries).map Prod.fst).Nodup ∧ ((prior ++ entries).map Prod.snd).Nodup := by
  induction entries generalizing prior with
  | nil =>
    rw [List.append_nil]
    exact Except.ensures_ok_iff.2 ⟨fun entry h ↦ absurd h List.not_mem_nil, hnullifiers, hindices⟩
  | cons entry rest ih =>
    obtain ⟨nullifier, index⟩ := entry
    rw [checkWitnessed]
    refine (ensures_ensure _ _).bind fun _ hlt ↦ (ensures_ensure _ _).bind fun _ hfresh ↦ ?_
    refine (ensures_ensure _ _).bind fun _ hfreshIndex ↦ ?_
    refine (Pczt.ensures_action hlt).bind fun action haction ↦ ?_
    refine (ensures_ensure _ _).bind fun _ hnullifier ↦ ?_
    refine (ensures_ensure _ _).bind fun _ _ ↦ (ensures_ensure _ _).bind fun _ _ ↦ ?_
    refine (ih (nodup_map_concat_iff.2 ⟨hnullifiers, hfresh⟩)
      (nodup_map_concat_iff.2 ⟨hindices, hfreshIndex⟩)).mono fun _ hrest ↦ ?_
    rw [List.append_assoc] at hrest
    exact ⟨List.forall_mem_cons.2 ⟨⟨action, haction, hnullifier⟩, hrest.1⟩, hrest.2⟩

theorem ensures_resolveSigners {table : List (Bytes32 × ℕ)}
    (hrange : ∀ entry ∈ table, entry.2 < pczt.actions.length)
    (spends : List NamesIronwoodSigningKey) (resolved : List (ℕ × Roles.SpendAuthorizingKey)) :
    (resolveSigners pczt table resolved spends).Ensures Reported fun _ ↦ True := by
  induction spends generalizing resolved with
  | nil => exact trivial
  | cons signingKey rest ih =>
    rw [resolveSigners]
    split
    · exact reported_failed _
    · rename_i nullifier index more hfilter
      have hmem : (nullifier, index) ∈
          table.filter fun entry ↦ entry.1 = signingKey.nullifier := by
        rw [hfilter]
        exact List.mem_cons_self
      refine (ensures_ensure _ _).bind fun _ _ ↦ (ensures_ensure _ _).bind fun _ _ ↦ ?_
      refine (Pczt.ensures_action (hrange _ (List.mem_filter.1 hmem).1)).bind fun _ _ ↦ ?_
      exact (ensures_ensure _ _).bind fun _ _ ↦ ih _

/-- **Everything before the Signer**: the keys are for the witnessed spends, one for each. -/
theorem ensures_signingTargets (pczt : Pczt) (metadata : NamesSigningMetadata)
    (plan : NamesSigningPlan) :
    (signingTargets pczt metadata plan).Ensures Reported fun _ ↦
      (∀ entry ∈ metadata.witnessedActionIndices, entry.2 < pczt.actions.length) ∧
      (metadata.witnessedActionIndices.map Prod.fst).Nodup ∧
      (plan.spends.map NamesIronwoodSigningKey.nullifier).Perm
        (metadata.witnessedActionIndices.map Prod.fst) := by
  refine (ensures_embeddedActionLayout _).bind fun _ _ ↦ ?_
  have hmetadata : (checkSigningMetadata pczt metadata).Ensures Reported fun _ ↦
      (∀ entry ∈ metadata.witnessedActionIndices, ∃ action,
        pczt.actions[entry.2]? = some action ∧ action.nullifier = entry.1) ∧
      (metadata.witnessedActionIndices.map Prod.fst).Nodup ∧
      (metadata.witnessedActionIndices.map Prod.snd).Nodup := by
    refine (ensures_ensure _ _).bind fun _ _ ↦ (ensures_ensure _ _).bind fun _ _ ↦ ?_
    refine (ensures_valueSumParts _).bind fun _ _ ↦ (ensures_ensure _ _).bind fun _ _ ↦ ?_
    refine (ensures_verifyEmbeddedDesignatedAction _ _ _ _).bind fun _ _ ↦ ?_
    have hnone : (([] : List (Bytes32 × ℕ)).map Prod.fst).Nodup ∧
        (([] : List (Bytes32 × ℕ)).map Prod.snd).Nodup := ⟨List.nodup_nil, List.nodup_nil⟩
    refine (ensures_checkWitnessed hnone.1 hnone.2).bind fun _ hwitnessed ↦ ?_
    refine (ensures_ensure _ _).bind fun _ _ ↦ ?_
    dsimp only
    split
    · exact reported_failed _
    · exact (ensures_ensure _ _).mono fun _ _ ↦ hwitnessed
  refine hmetadata.bind fun _ hwitnessed ↦ (ensures_ensure _ _).bind fun _ _ ↦ ?_
  obtain ⟨htable, hnullifiers, hindices⟩ := hwitnessed
  have hrange : ∀ entry ∈ metadata.witnessedActionIndices, entry.2 < pczt.actions.length := by
    intro entry hentry
    obtain ⟨action, haction, -⟩ := htable entry hentry
    exact (List.getElem?_eq_some_iff.1 haction).1
  refine (ensures_resolveSigners hrange _ _).value.bind fun targets htargets ↦ ?_
  refine (ensures_ensure _ _).bind fun _ hcovers ↦ ?_
  refine Except.ensures_ok_iff.2 ⟨hrange, hnullifiers, ?_⟩
  have hfrom := (resolveSigners_eq_ok_iff htable (show
    (([] : List (ℕ × Roles.SpendAuthorizingKey)).map Prod.fst).Nodup from List.nodup_nil)).1
      htargets.1
  have hassigns : Assigns metadata.witnessedActionIndices metadata.witnessedActionIndices
      (signingRequests plan.spends) targets :=
    ⟨(resolvedFrom_start_iff.1 hfrom).1, mergeSort_eq_mergeSort_iff_perm.1 hcovers⟩
  rw [← signingRequests_keys]
  exact ((exists_assigns_iff hindices (List.Subset.refl _)).1 ⟨targets, hassigns⟩).1

/-- **`sign_names_ironwood_pczt`**, whatever the Signer does. -/
theorem ensures_signNamesIronwoodPczt (proved : NamesProvedPczt) (plan : NamesSigningPlan) :
    (signNamesIronwoodPczt proved plan).Ensures Reported fun signed ↦
      signed.toPcztMetadata = proved.toPcztMetadata ∧ signed.anchor = proved.anchor ∧
      (proved.witnessedActionIndices.map Prod.fst).Nodup ∧
      (plan.spends.map NamesIronwoodSigningKey.nullifier).Perm
        (proved.witnessedActionIndices.map Prod.fst) ∧
      ∀ layout, proved.pczt.Shows proved.toPcztMetadata layout →
        signed.pczt.Shows proved.toPcztMetadata layout := by
  refine (ensures_required _ _).bind fun _ _ ↦ (ensures_ensure _ _).bind fun _ _ ↦ ?_
  refine (ensures_ensure _ _).bind fun _ _ ↦ ?_
  have hcore : (signNamesIronwoodPcztCore proved.pczt proved.signingMetadata plan).Ensures Reported
      fun signed ↦ (proved.witnessedActionIndices.map Prod.fst).Nodup ∧
        (plan.spends.map NamesIronwoodSigningKey.nullifier).Perm
          (proved.witnessedActionIndices.map Prod.fst) ∧
        ∀ layout, proved.pczt.Shows proved.toPcztMetadata layout →
          signed.Shows proved.toPcztMetadata layout := by
    refine (ensures_signingTargets _ _ _).bind fun targets htargets ↦ ?_
    obtain ⟨hrange, hnullifiers, hkeys⟩ := htargets
    refine (ensures_during _ _).bind fun signer _ ↦ ?_
    have hsignAll : (signAll signer targets).Ensures Reported fun _ ↦ True :=
      Except.ensures_foldlM trivial fun _ _ _ _ ↦ (ensures_during _ _).mono fun _ _ ↦ trivial
    refine hsignAll.bind fun final _ ↦ ?_
    have hsigned : (checkSigned proved.pczt proved.signingMetadata (Roles.finish final)).Ensures
        Reported fun _ ↦ ∀ layout, proved.pczt.Shows proved.toPcztMetadata layout →
          (Roles.finish final).Shows proved.toPcztMetadata layout := by
      refine (ensures_ensure _ _).bind fun _ hsize ↦ ?_
      refine (ensures_embeddedActionLayout _).bind fun layout hlayout ↦ ?_
      refine (ensures_embeddedActionLayout _).bind fun before hbefore ↦ ?_
      refine (ensures_ensure _ _).bind fun _ hsame ↦ (ensures_ensure _ _).bind fun _ hvalue ↦ ?_
      refine (ensures_ensure _ _).bind fun _ _ ↦ (ensures_ensure _ _).bind fun _ _ ↦ ?_
      refine (ensures_verifyEmbeddedDesignatedAction _ _ _ _).bind fun _ hdesignated ↦ ?_
      refine (Except.ensures_forM (P := fun _ ↦ True) fun index hindex ↦ ?_).bind fun _ _ ↦ ?_
      · obtain ⟨entry, hentry, rfl⟩ := List.mem_map.1 (List.mem_mergeSort.1 hindex)
        refine (Pczt.ensures_action (hsize ▸ hrange entry hentry)).bind fun _ _ ↦ ?_
        exact (ensures_ensure _ _).bind fun _ _ ↦ (ensures_ensure _ _).mono fun _ _ ↦ trivial
      refine (Except.ensures_forM (P := fun _ ↦ True) fun entry hentry ↦ ?_).bind fun _ _ ↦ ?_
      · obtain ⟨index, signature⟩ := entry
        refine (Pczt.ensures_action (hsize ▸ dummySignatures_lt hentry)).bind fun _ _ ↦ ?_
        exact (ensures_ensure _ _).mono fun _ _ ↦ trivial
      refine (ensures_ensure _ _).mono fun _ _ shown hshown ↦ ?_
      obtain rfl : before = shown := Except.ok.inj (hbefore.symm.trans hshown.layout_eq)
      subst hsame
      exact ⟨hlayout, hsize.trans hshown.actionCount,
        hshown.valueSum.trans (congrArg _ hvalue.symm), hdesignated⟩
    refine hsigned.bind fun _ hshows ↦ ?_
    exact Except.ensures_ok_iff.2 ⟨hnullifiers, hkeys, hshows⟩
  refine hcore.bind fun signed hsigned ↦ (ensures_ensure _ _).bind fun _ _ ↦ ?_
  exact Except.ensures_ok_iff.2 ⟨rfl, rfl, hsigned⟩

/-! ### The transaction -/

/-- What an extracted transaction carries. -/
structure NamesExtractedTransaction.Carries (extracted : NamesExtractedTransaction)
    (metadata : PcztMetadata) (layout : List (Bytes32 × Bytes32)) (anchor : PallasBase) :
    Prop where
  isV6 : Assembly.isV6 extracted.transaction = true
  txid : extracted.txid = Assembly.txid extracted.transaction
  bundle : ∃ ironwood : AuthorizedBundle,
    Assembly.ironwoodBundle extracted.transaction = some ironwood ∧ ironwood.actions = layout ∧
      ironwood.valueBalance = metadata.ironwoodValueBalance ∧ ironwood.anchor = anchor ∧
      ironwood.proof ≠ []

/-- **`extract_names_transaction`**, whatever the Transaction Extractor does. -/
theorem ensures_extractNamesTransaction (signed : NamesSignedPczt) :
    (extractNamesTransaction signed).Ensures Reported fun extracted ↦
      extracted.toPcztMetadata = signed.toPcztMetadata ∧
      ∀ layout, signed.pczt.Shows signed.toPcztMetadata layout →
        extracted.Carries signed.toPcztMetadata layout signed.anchor := by
  refine (ensures_required _ _).bind fun proofBytes _ ↦ ?_
  refine (ensures_ensure _ _).bind fun _ _ ↦ (ensures_ensure _ _).bind fun _ _ ↦ ?_
  refine (ensures_embeddedActionLayout _).bind fun before hbefore ↦ ?_
  have hunextracted : (checkUnextracted signed).Ensures Reported fun _ ↦ True := by
    refine (ensures_ensure _ _).bind fun _ _ ↦ (ensures_valueSumParts _).bind fun _ _ ↦ ?_
    refine (ensures_ensure _ _).bind fun _ _ ↦ (ensures_ensure _ _).bind fun _ _ ↦ ?_
    refine (ensures_verifyEmbeddedDesignatedAction _ _ _ _).bind fun _ _ ↦ ?_
    exact (ensures_ensure _ _).mono fun _ _ ↦ trivial
  refine hunextracted.bind fun _ _ ↦ (ensures_during _ _).bind fun transaction _ ↦ ?_
  refine (ensures_ensure _ _).bind fun _ hversion ↦ ?_
  refine (ensures_required _ _).bind fun ironwood hironwood ↦ ?_
  have hextracted : (checkExtracted signed before proofBytes ironwood).Ensures Reported fun _ ↦
      ironwood.actions = before ∧ ironwood.valueBalance = signed.ironwoodValueBalance ∧
        ironwood.anchor = signed.anchor ∧ ironwood.proof ≠ [] := by
    refine (ensures_ensure _ _).bind fun _ _ ↦ (ensures_ensure _ _).bind fun _ hactions ↦ ?_
    refine (ensures_required _ _).bind fun _ _ ↦ (ensures_ensure _ _).bind fun _ _ ↦ ?_
    refine (ensures_ensure _ _).bind fun _ _ ↦ (ensures_ensure _ _).bind fun _ _ ↦ ?_
    refine (ensures_ensure _ _).bind fun _ hbalance ↦ ?_
    refine (ensures_ensure _ _).bind fun _ hanchor ↦ (ensures_ensure _ _).bind fun _ hproof ↦ ?_
    refine (ensures_ensure _ _).bind fun _ _ ↦ ?_
    exact (ensures_ensure _ _).mono fun _ _ ↦ ⟨hactions, hbalance, hanchor, hproof⟩
  refine hextracted.bind fun _ hbundle ↦ (ensures_context _ _).bind fun serialized _ ↦ ?_
  refine Except.ensures_ok_iff.2 ⟨rfl, fun layout hlayout ↦ ?_⟩
  obtain rfl : before = layout := Except.ok.inj (hbefore.symm.trans hlayout.layout_eq)
  exact ⟨hversion, rfl, ironwood, hironwood, hbundle⟩

end Assembled

end CoppiceNames
