import CoppiceNames.Wallet.Signing

/-!
# Witness plans and signing plans

The two steps together. What installing passes on is consistent metadata for signing, so a wallet
that gives both steps the nullifiers of its real spends gets every one of them witnessed with its
own path and signed with its own key, in whatever order it lists them.
-/

namespace CoppiceNames

section Plans

variable [Roles] {finalized : NamesFinalizedPczt} {plan : NamesWitnessPlan}
  {witnessed : NamesWitnessedPczt}

omit [Roles] in
/-- What a witnessed PCZT passes on to signing. -/
def NamesWitnessedPczt.signingMetadata (witnessed : NamesWitnessedPczt) : NamesSigningMetadata where
  anchor := witnessed.anchor
  witnessedActionIndices := witnessed.witnessedActionIndices
  designatedActionIndex := witnessed.designatedActionIndex
  designatedNullifier := witnessed.designatedNullifier
  designatedCommitment := witnessed.designatedCommitment
  actionCount := witnessed.actionCount
  realSpendCount := witnessed.realSpendCount
  ironwoodValueBalance := witnessed.ironwoodValueBalance

omit [Roles] in
theorem map_nullifier_of_resolves {table : List (Bytes32 × ℕ)} {spends : List NamesIronwoodWitness}
    {resolved : List (ℕ × NamesIronwoodWitness)}
    (h : List.Forall₂ (Resolves table) (witnessRequests spends) resolved) :
    resolved.map (fun entry ↦ entry.2.nullifier) = spends.map NamesIronwoodWitness.nullifier := by
  rw [witnessRequests, List.forall₂_map_left_iff] at h
  induction h with
  | nil => rfl
  | cons hfirst _ ih => rw [List.map_cons, List.map_cons, ih, hfirst.2]

omit [Roles] in
/-- A matching plan names every nullifier once. -/
theorem NamesWitnessPlan.Matches.nodup {actions : List PcztAction} (h : plan.Matches actions) :
    (plan.spends.map NamesIronwoodWitness.nullifier).Nodup := by
  rw [h.perm.nodup_iff, List.nodup_iff_count_le_one]
  intro nullifier
  by_cases hmem : nullifier ∈
      (actions.filter fun action ↦ action.witness = none).map PcztAction.nullifier
  · rw [← h.once nullifier hmem]
    exact (List.filter_sublist.map _).count_le nullifier
  · rw [List.count_eq_zero_of_not_mem hmem]
    exact Nat.zero_le 1

/-- The metadata for signing lists the nullifiers in the order of the witness plan. -/
theorem nullifiers_of_installed (hconsistent : finalized.Consistent)
    (hroles : UpdatesListed finalized.pczt plan.anchor)
    (h : installNamesIronwoodWitnesses finalized plan = .ok witnessed) :
    witnessed.witnessedActionIndices.map Prod.fst =
      plan.spends.map NamesIronwoodWitness.nullifier := by
  obtain ⟨resolved, actions, hassigns, -, -, rfl⟩ :=
    (installNamesIronwoodWitnesses_eq_ok_iff hconsistent hroles).1 h
  rw [← map_nullifier_of_resolves hassigns.resolved]
  show (resolved.map fun entry ↦ (entry.2.nullifier, entry.1)).map Prod.fst = _
  rw [List.map_map]
  rfl

/-- **From witnesses to signatures.** Where exactly the padding spends were signed, installing
passes on consistent metadata. A proof that is added in between changes none of it. -/
theorem consistent_of_installed (hconsistent : finalized.Consistent)
    (hroles : UpdatesListed finalized.pczt plan.anchor)
    (hsignatures : ∀ action ∈ finalized.pczt.actions,
      action.spendAuthSig.isSome = action.witness.isSome)
    (h : installNamesIronwoodWitnesses finalized plan = .ok witnessed)
    (proof : Option (List UInt8)) :
    witnessed.signingMetadata.Consistent { witnessed.pczt with zkproof := proof } := by
  have hnullifiers := nullifiers_of_installed hconsistent hroles h
  have hmatches := (exists_installed_iff hconsistent hroles).1 ⟨witnessed, h⟩
  obtain ⟨resolved, actions, hassigns, -, hwrites, rfl⟩ :=
    (installNamesIronwoodWitnesses_eq_ok_iff hconsistent hroles).1 h
  have hpairs : actions.map PcztAction.pair = finalized.pczt.actions.map PcztAction.pair :=
    hwrites.map_eq fun _ _ ↦ rfl
  have hslots := actionTable_slots_nodup finalized.pczt.actions
  have hwanted := realSpends_sublist finalized.pczt.actions
  refine ⟨fun action haction ↦ ?_, rfl, hwrites.length_eq.trans hconsistent.actionCount,
    hconsistent.valueSum, ?_, fun entry hentry ↦ ?_, ?_, ?_, ?_, ?_⟩
  · have hpair : action.pair ∈ finalized.pczt.actions.map PcztAction.pair :=
      hpairs ▸ List.mem_map_of_mem haction
    obtain ⟨before, hbefore, heq⟩ := List.mem_map.1 hpair
    rw [← (Prod.mk.inj heq).2]
    exact hconsistent.commitments before hbefore
  · rw [← hconsistent.designated]
    exact verifyEmbeddedDesignatedAction_congr hpairs _ _ _
  · obtain ⟨⟨index, planned⟩, hlisted, rfl⟩ := List.mem_map.1 hentry
    obtain ⟨nullifier, hrequest, hmem⟩ := hassigns.exists_request hslots hwanted.subset hlisted
    obtain ⟨found, -, heq⟩ := List.mem_map.1 hrequest
    obtain ⟨rfl, rfl⟩ := Prod.mk.inj heq
    obtain ⟨action, haction, hnullifier, hwitness⟩ := mem_realSpends.1 hmem
    have hunsigned := hsignatures action (List.mem_of_getElem? haction)
    rw [hwitness, Option.isSome_none, Option.isSome_eq_false_iff, Option.isNone_iff_eq_none]
      at hunsigned
    have hwritten := hwrites.listed (index, found.merklePath) (List.mem_map_of_mem hlisted)
    rw [haction] at hwritten
    exact ⟨_, hwritten, hnullifier, rfl, hunsigned⟩
  · show ((resolved.map fun entry ↦ (entry.2.nullifier, entry.1)).map Prod.fst).Nodup
    rw [hnullifiers]
    exact hmatches.nodup
  · show ((resolved.map fun entry ↦ (entry.2.nullifier, entry.1)).map Prod.snd).Nodup
    rw [List.map_map]
    exact hassigns.nodup hslots hwanted
  · show (resolved.map fun entry ↦ (entry.2.nullifier, entry.1)).length = finalized.realSpendCount
    rw [← List.length_map (f := Prod.fst), hnullifiers, hmatches.perm.length_eq, List.length_map,
      hconsistent.realSpendCount]
  · show (actions.filter fun action ↦ action.spendAuthSig.isSome).length +
      finalized.realSpendCount = finalized.actionCount
    have hsigs : (actions.filter fun action ↦ action.spendAuthSig.isSome).length =
        (finalized.pczt.actions.filter fun action ↦ action.witness.isSome).length := by
      have hsame : actions.map PcztAction.spendAuthSig =
          finalized.pczt.actions.map PcztAction.spendAuthSig := hwrites.map_eq fun _ _ ↦ rfl
      rw [← List.filter_congr hsignatures]
      have hcount := congrArg (List.countP Option.isSome) hsame
      rw [List.countP_map, List.countP_map, List.countP_eq_length_filter,
        List.countP_eq_length_filter] at hcount
      exact hcount
    have hsplit := List.length_eq_length_filter_add (l := finalized.pczt.actions)
      fun action ↦ action.witness.isSome
    have hreal : (finalized.pczt.actions.filter fun action ↦ !action.witness.isSome).length =
        finalized.realSpendCount := by
      rw [← hconsistent.realSpendCount]
      refine congrArg List.length (List.filter_congr fun action _ ↦ ?_)
      rcases action.witness with - | witness <;> rfl
    have hcount := hconsistent.actionCount
    omega

/-- **Plans are resolved to exactly the real spends**: to the actions without a witness when the
witnesses are installed, to the witnessed ones when they are signed. What comes out does not depend
on the order of either plan, and neither does what signing makes of it. -/
theorem plans_resolve_exactly :
    (∀ (finalized : NamesFinalizedPczt) (plan : NamesWitnessPlan), finalized.Consistent →
      UpdatesListed finalized.pczt plan.anchor →
      ((∃ witnessed, installNamesIronwoodWitnesses finalized plan = .ok witnessed) ↔
        plan.Matches finalized.pczt.actions) ∧
      ∀ witnessed, installNamesIronwoodWitnesses finalized plan = .ok witnessed →
        witnessed.Installed finalized plan ∧
        ∀ plan' : NamesWitnessPlan, plan'.anchor = plan.anchor →
          plan'.spends.Perm plan.spends →
          ∃ witnessed', installNamesIronwoodWitnesses finalized plan' = .ok witnessed' ∧
            witnessed'.pczt = witnessed.pczt ∧
            witnessed'.witnessedActionIndices.Perm witnessed.witnessedActionIndices) ∧
    ∀ (pczt : Pczt) (metadata : NamesSigningMetadata) (plan : NamesSigningPlan),
      metadata.Consistent pczt →
      ((∃ targets, signingTargets pczt metadata plan = .ok targets) ↔
        (plan.spends.map NamesIronwoodSigningKey.nullifier).Perm
          (metadata.witnessedActionIndices.map Prod.fst)) ∧
      ∀ signature, SignsListed pczt signature →
        ((∃ signed, signNamesIronwoodPcztCore pczt metadata plan = .ok signed) ↔
          (plan.spends.map NamesIronwoodSigningKey.nullifier).Perm
              (metadata.witnessedActionIndices.map Prod.fst) ∧
            (∃ signer, Roles.newSigner pczt = .ok signer) ∧ AllSign signature metadata plan) ∧
        ∀ signed, signNamesIronwoodPcztCore pczt metadata plan = .ok signed →
          Signed signature metadata plan pczt signed ∧
          ∀ (indices : List (Bytes32 × ℕ)) (plan' : NamesSigningPlan),
            indices.Perm metadata.witnessedActionIndices → plan'.spends.Perm plan.spends →
            signNamesIronwoodPcztCore pczt { metadata with witnessedActionIndices := indices }
              plan' = .ok signed := by
  refine ⟨fun finalized plan hconsistent hroles ↦
      ⟨exists_installed_iff hconsistent hroles, fun witnessed h ↦ ?_⟩,
    fun pczt metadata plan hconsistent ↦
      ⟨exists_signingTargets_iff hconsistent, fun signature hroles ↦
        ⟨exists_signed_iff hconsistent hroles, fun signed h ↦ ?_⟩⟩⟩
  · exact ⟨installed_of_eq_ok hconsistent hroles h,
      fun plan' hanchor hperm ↦ installed_of_perm hconsistent hroles hanchor hperm h⟩
  · exact ⟨signed_of_eq_ok hconsistent hroles h,
      fun indices plan' hindices hperm ↦ signed_of_perm hconsistent hroles hindices hperm h⟩

end Plans

/-! ### Two real spends and a padding spend -/

namespace Sample

/-- The signature of a key, when the key is the first byte of the nullifier. -/
def spendSignature (pczt : Pczt) (index : ℕ) (ask : UInt8) : Option (Vector UInt8 64) :=
  match pczt.actions[index]? with
  | none => none
  | some action =>
    if action.nullifier.toList.head? = some ask then some (.replicate 64 ask) else none

def signAt (pczt : Pczt) (index : ℕ) (sig : Vector UInt8 64) : Pczt :=
  { pczt with actions := writeAll PcztAction.setSignature [(index, sig)] pczt.actions }

/-- Roles that write what is listed, and refuse the key of another spend. -/
scoped instance roles : Roles where
  SpendAuthorizingKey := UInt8
  Signer := Pczt
  setIronwoodAnchor pczt anchor := .ok { pczt with anchor := some anchor.toRepr }
  setIronwoodSpendWitnesses pczt targets :=
    .ok { pczt with actions := writeAll PcztAction.setWitness targets pczt.actions }
  newSigner := .ok
  signIronwood pczt index ask :=
    match spendSignature pczt index ask with
    | none => .error "WrongSpendAuthorizingKey"
    | some sig => .ok (signAt pczt index sig)
  finish := id

theorem updatesListed (pczt : Pczt) (anchor : PallasBase) : UpdatesListed pczt anchor where
  installs_anchor := rfl
  installs_witnesses _ hnodup _ := ⟨_, rfl, writes_writeAll hnodup pczt.actions⟩

/-- Signing leaves the nullifiers alone. -/
theorem nullifiers_of_signerOf {pczt signer : Pczt} (h : SignerOf pczt signer) :
    signer.actions.map PcztAction.nullifier = pczt.actions.map PcztAction.nullifier := by
  induction h with
  | new h =>
    obtain rfl := Except.ok.inj h
    rfl
  | @sign signer next index ask _ h ih =>
    rcases hsig : spendSignature signer index ask with - | sig
    · rw [show Roles.signIronwood signer index ask = .error "WrongSpendAuthorizingKey" by
        simp only [Roles.signIronwood, hsig]] at h
      exact absurd h (by simp)
    · have hwrites : Writes PcztAction.setSignature [(index, sig)] signer.actions next.actions := by
        rw [show Roles.signIronwood signer index ask = .ok (signAt signer index sig) by
          simp only [Roles.signIronwood, hsig]] at h
        obtain rfl := Except.ok.inj h
        exact writes_modify (index, sig) signer.actions
      exact (hwrites.map_eq fun _ _ ↦ rfl).trans ih

/-- A key signs what it signed at first. -/
theorem spendSignature_of_signerOf {pczt signer : Pczt} (h : SignerOf pczt signer) (index : ℕ)
    (ask : UInt8) : spendSignature signer index ask = spendSignature pczt index ask := by
  have hread : ∀ pczt : Pczt, spendSignature pczt index ask =
      ((pczt.actions.map PcztAction.nullifier)[index]?).bind fun nullifier ↦
        if nullifier.toList.head? = some ask then some (.replicate 64 ask) else none := by
    intro pczt
    rw [spendSignature, List.getElem?_map]
    rcases pczt.actions[index]? with - | action <;> rfl
  rw [hread, hread, nullifiers_of_signerOf h]

theorem signsListed (pczt : Pczt) : SignsListed pczt (spendSignature pczt) where
  created signer h := (Except.ok.inj h).symm
  signs signer index ask sig hsigner _ hsig := by
    refine ⟨signAt signer index sig, _, ?_, rfl, writes_modify (index, sig) signer.actions⟩
    rw [← spendSignature_of_signerOf hsigner] at hsig
    simp only [Roles.signIronwood, hsig]
  refuses signer index ask hsigner hsig := by
    rw [← spendSignature_of_signerOf hsigner] at hsig
    exact ⟨"WrongSpendAuthorizingKey", by simp only [Roles.signIronwood, hsig]⟩

/-- An action with `byte` as its nullifier. -/
def spendAction (byte : UInt8) (witness : Option StoredWitness)
    (sig : Option (Vector UInt8 64)) : PcztAction where
  nullifier := .replicate 32 byte
  cmx := some (.replicate 32 (byte + 100))
  witness := witness
  spendAuthSig := sig

def pathAt (position : U32) : MerklePath where
  position := position
  authPath := .replicate 32 0

/-- The padding spend stands between the two real ones. -/
def funded : NamesFinalizedPczt where
  pczt :=
    { actions := [spendAction 1 none none,
        spendAction 2 (some (pathAt 0).stored) (some (.replicate 64 0)), spendAction 3 none none]
      valueSum := (65000, false)
      anchor := none
      zkproof := none }
  designatedActionIndex := 2
  designatedNullifier := .replicate 32 3
  designatedCommitment := .replicate 32 103
  actionCount := 3
  realSpendCount := 2
  requestedOutputCount := 1
  carrierOutputCount := 0
  changeOutputCount := 0
  ironwoodValueBalance := 65000

/-- The plan does not list the spends in the order of the actions. -/
def witnessPlan : NamesWitnessPlan where
  anchor := 5
  spends := [⟨.replicate 32 3, pathAt 30⟩, ⟨.replicate 32 1, pathAt 10⟩]

def signingPlan : NamesSigningPlan where
  spends := [⟨.replicate 32 1, (1 : UInt8)⟩, ⟨.replicate 32 3, (3 : UInt8)⟩]

theorem funded_consistent : funded.Consistent where
  commitments := by decide +kernel
  actionCount := by decide +kernel
  valueSum := by decide +kernel
  realSpendCount := by decide +kernel
  designated := by decide +kernel

theorem witnessPlan_matches : witnessPlan.Matches funded.pczt.actions where
  perm := by decide +kernel
  once := by decide +kernel

/-- Both spends are witnessed and signed. -/
theorem plans_resolve_exactly_funded : ∃ witnessed signed,
    installNamesIronwoodWitnesses funded witnessPlan = .ok witnessed ∧
      witnessed.Installed funded witnessPlan ∧
      signNamesIronwoodPcztCore witnessed.pczt witnessed.signingMetadata signingPlan = .ok signed ∧
      Signed (spendSignature witnessed.pczt) witnessed.signingMetadata signingPlan witnessed.pczt
        signed := by
  have hinstalls := plans_resolve_exactly.1 funded witnessPlan funded_consistent (updatesListed _ _)
  obtain ⟨witnessed, hwitnessed⟩ := hinstalls.1.2 witnessPlan_matches
  have hconsistent : witnessed.signingMetadata.Consistent witnessed.pczt :=
    consistent_of_installed funded_consistent (updatesListed _ _) (by decide +kernel) hwitnessed
      witnessed.pczt.zkproof
  have hperm : (signingPlan.spends.map NamesIronwoodSigningKey.nullifier).Perm
      (witnessed.witnessedActionIndices.map Prod.fst) := by
    rw [nullifiers_of_installed funded_consistent (updatesListed _ _) hwitnessed]
    decide +kernel
  have hall : AllSign (spendSignature witnessed.pczt) witnessed.signingMetadata signingPlan := by
    intro entry hentry signingKey hkey hnullifier
    have hown : ∀ signingKey ∈ signingPlan.spends,
        signingKey.nullifier.toList.head? = some signingKey.ask := by
      decide +kernel
    obtain ⟨action, haction, hsame, -⟩ := hconsistent.witnessed entry hentry
    rw [spendSignature, haction]
    dsimp only
    rw [hsame, ← hnullifier, if_pos (hown signingKey hkey)]
    rfl
  have hsigns := (plans_resolve_exactly.2 witnessed.pczt witnessed.signingMetadata signingPlan
    hconsistent).2 _ (signsListed witnessed.pczt)
  obtain ⟨signed, hsigned⟩ := hsigns.1.2 ⟨hperm, ⟨_, rfl⟩, hall⟩
  exact ⟨witnessed, signed, hwitnessed, (hinstalls.2 witnessed hwitnessed).1, hsigned,
    (hsigns.2 signed hsigned).1⟩

end Sample

end CoppiceNames
