import CoppiceNames.Store.Rewind

/-!
# The private table of COMMIT locations

The wallet records where its own COMMITs were mined, and a COMMIT that was recorded elsewhere is
refused. The table is not in the rollback journal. `rollback_to_height_or_reset` deletes the rows
above the height; `rollback_to_height`, which is public as well, does not, so its rewinds leave rows
of blocks that are gone (`wallet_commits_forgotten`). In a run where no such row is left behind, a
refused COMMIT is one that stands recorded elsewhere (`WalletStore.Standing`).
-/

open Std hiding not_le not_lt

namespace CoppiceNames

section Observations

variable [Primitives] {B : Type}

/-- A call of `WalletNamesTransaction`. -/
inductive WalletCall
  | putCoreSnapshot (snapshot : List UInt8)
  | resetForReplay
  | applyDelta (delta : StateDelta)
  | recordWalletCommit (commitment : Bytes32) (reference : CommitRef)
  | rollbackToHeight (height : U32)
  | rollbackToHeightOrReset (height : U32)

omit [Primitives] in
/-- The height that a rewind goes to. -/
def WalletCall.rewindsTo : WalletCall → Option U32
  | rollbackToHeight height => some height
  | rollbackToHeightOrReset height => some height
  | _ => none

namespace WalletStore

variable (serde : Serde B HeadRecord)

/-- Perform a call. A failed rewind leaves what it had undone so far. -/
def call (store : WalletStore B) : WalletCall → Except StoreError Unit × WalletStore B
  | .putCoreSnapshot snapshot => (.ok (), store.putCoreSnapshot snapshot)
  | .resetForReplay => (.ok (), store.resetForReplay)
  | .applyDelta delta =>
    match store.applyDelta serde delta with
    | .ok next => (.ok (), next)
    | .error e => (.error e, store)
  | .recordWalletCommit commitment reference =>
    match store.recordWalletCommit commitment reference with
    | .ok next => (.ok (), next)
    | .error e => (.error e, store)
  | .rollbackToHeight height =>
    ((store.rollbackToHeight serde height).1.map fun _ ↦ (),
      (store.rollbackToHeight serde height).2)
  | .rollbackToHeightOrReset height =>
    ((store.rollbackToHeightOrReset serde height).1.map fun _ ↦ (),
      (store.rollbackToHeightOrReset serde height).2)

/-- Perform calls in order. -/
def run (store : WalletStore B) (calls : List WalletCall) : WalletStore B :=
  calls.foldl (fun store c ↦ (store.call serde c).2) store

/-- No successful `rollback_to_height` leaves a row above its height. -/
def LeavesNone (store : WalletStore B) (calls : List WalletCall) : Prop :=
  ∀ before height after, calls = before ++ .rollbackToHeight height :: after →
    ((store.run serde before).call serde (.rollbackToHeight height)).1 = .ok () →
      ∀ (commitment : Bytes32) (reference : CommitRef),
        (store.run serde before).walletCommits[commitment]? = some reference →
          reference.height ≤ height

/-- A COMMIT was recorded at a place, and no successful rewind went below it since. -/
def Standing (store : WalletStore B) (calls : List WalletCall) (commitment : Bytes32)
    (reference : CommitRef) : Prop :=
  ∃ before after, calls = before ++ .recordWalletCommit commitment reference :: after ∧
    ∀ between c later height, after = between ++ c :: later → c.rewindsTo = some height →
      ((store.run serde
        (before ++ .recordWalletCommit commitment reference :: between)).call serde c).1 = .ok () →
        reference.height ≤ height

variable {serde} {store : WalletStore B} {calls : List WalletCall}

theorem run_concat (c : WalletCall) :
    store.run serde (calls ++ [c]) = ((store.run serde calls).call serde c).2 := by
  rw [run, List.foldl_append]
  rfl

/-- A row after a call was there before, and was not rewound, or the call recorded it. -/
theorem walletCommits_call {c : WalletCall} {commitment : Bytes32} {reference : CommitRef}
    (h : (store.call serde c).2.walletCommits[commitment]? = some reference) :
    (store.walletCommits[commitment]? = some reference ∧
      ∀ height, c = .rollbackToHeightOrReset height → (store.call serde c).1 = .ok () →
        reference.height ≤ height) ∨
    c = .recordWalletCommit commitment reference := by
  rcases c with snapshot | - | delta | ⟨commitment', reference'⟩ | height | height
  · exact Or.inl ⟨h, fun height hc ↦ absurd hc (by simp)⟩
  · exact Or.inl ⟨h, fun height hc ↦ absurd hc (by simp)⟩
  · refine Or.inl ⟨?_, fun height hc ↦ absurd hc (by simp)⟩
    rw [call] at h
    rcases happly : store.applyDelta serde delta with e | next
    · rw [happly] at h
      exact h
    · rw [happly] at h
      rw [applyDelta_eq] at happly
      obtain ⟨tables, -, rfl⟩ := Except.map_eq_ok_iff.1 happly
      exact h
  · rw [call, recordWalletCommit] at h
    rcases hfound : store.walletCommits[commitment']? with - | found
    · -- a new row
      rw [hfound] at h
      dsimp only at h
      rcases OrderedMap.getElem?_insert_eq_some_iff.1 h with ⟨rfl, rfl⟩ | ⟨-, hold⟩
      · exact Or.inr rfl
      · exact Or.inl ⟨hold, fun height hc ↦ absurd hc (by simp)⟩
    · rw [hfound] at h
      refine Or.inl ⟨?_, fun height hc ↦ absurd hc (by simp)⟩
      dsimp only at h
      split at h
      · rename_i hok
        split at hok
        · exact absurd hok (by simp)
        · rw [← Except.ok.inj hok] at h
          exact h
      · exact h
  · refine Or.inl ⟨?_, fun height hc ↦ absurd hc (by simp)⟩
    rw [call] at h
    dsimp only at h
    rwa [rollbackToHeight_walletCommits] at h
  · rw [call] at h
    dsimp only at h
    rcases hrewind : store.rollbackToHeightOrReset serde height with ⟨e | tip, next⟩
    · rw [hrewind, rollbackToHeightOrReset_walletCommits_of_error hrewind] at h
      refine Or.inl ⟨h, fun height' hc hok ↦ ?_⟩
      rw [call, hrewind] at hok
      exact absurd hok (by simp [Except.map])
    · rw [hrewind, rollbackToHeightOrReset_walletCommits hrewind, ExtTreeMap.getElem?_filter',
        Option.filter_eq_some_iff] at h
      refine Or.inl ⟨h.1, fun height' hc _ ↦ ?_⟩
      rw [← WalletCall.rollbackToHeightOrReset.inj hc]
      exact of_decide_eq_true h.2

/-- **The rows of a run** that leaves none behind stand recorded. -/
theorem standing_of_run (identity : StoreIdentity)
    (hleaves : (new identity : WalletStore B).LeavesNone serde calls) {commitment : Bytes32}
    {reference : CommitRef}
    (hrow : ((new identity).run serde calls).walletCommits[commitment]? = some reference) :
    (new identity : WalletStore B).Standing serde calls commitment reference := by
  induction calls using List.reverseRecOn with
  | nil => exact absurd hrow (by simp [run, new])
  | append_singleton calls c ih =>
    rw [run_concat] at hrow
    have hbefore : (new identity : WalletStore B).LeavesNone serde calls :=
      fun before height after hcalls ↦ hleaves before height (after ++ [c]) (by simp [hcalls])
    rcases walletCommits_call hrow with ⟨hold, hkept⟩ | rfl
    · obtain ⟨before, after, rfl, hsince⟩ := ih hbefore hold
      refine ⟨before, after ++ [c], by simp, fun between c' later height hafter hrewinds hok ↦ ?_⟩
      rcases List.eq_nil_or_concat later with rfl | ⟨later', last, rfl⟩
      · -- the last call is the rewind
        obtain ⟨rfl, hlast⟩ := List.append_inj' hafter rfl
        obtain rfl : c = c' := (List.cons.inj hlast).1
        rcases c with snapshot | - | delta | ⟨commitment', reference'⟩ | height' | height'
        · exact absurd hrewinds (by simp [WalletCall.rewindsTo])
        · exact absurd hrewinds (by simp [WalletCall.rewindsTo])
        · exact absurd hrewinds (by simp [WalletCall.rewindsTo])
        · exact absurd hrewinds (by simp [WalletCall.rewindsTo])
        · obtain rfl := Option.some.inj hrewinds
          exact hleaves _ height' [] (by simp) hok commitment reference hold
        · obtain rfl := Option.some.inj hrewinds
          exact hkept height' rfl hok
      · have hafter' : after = between ++ c' :: later' := by
          rw [List.concat_eq_append, ← List.cons_append, ← List.append_assoc] at hafter
          exact (List.append_inj' hafter rfl).1
        exact hsince between c' later' height hafter' hrewinds hok
    · refine ⟨calls, [], by simp, fun between c' later height hafter ↦ ?_⟩
      exact absurd hafter (by simp)

omit [Primitives] in
/-- Only a COMMIT that is recorded elsewhere is refused. -/
theorem recordWalletCommit_eq_mismatch_iff {commitment : Bytes32} {reference : CommitRef} :
    store.recordWalletCommit commitment reference = .error .authoritativeRecordMismatch ↔
      ∃ other, store.walletCommits[commitment]? = some other ∧ other ≠ reference := by
  rw [recordWalletCommit]
  rcases store.walletCommits[commitment]? with - | other
  · simp
  · by_cases hsame : other = reference
    · simp [hsame]
    · simp [hsame]

end WalletStore

/-- **Which rewinds forget the observations they rewind.** A successful
`rollback_to_height_or_reset` leaves exactly the rows at or below its height. A successful
`rollback_to_height` does so when there is no row above the height, and only then. In a run whose
rewinds all do, a COMMIT is refused only where it stands recorded at another place. -/
theorem wallet_commits_forgotten (serde : Serde B HeadRecord) :
    (∀ (store : WalletStore B) height tip next,
      store.rollbackToHeightOrReset serde height = (.ok tip, next) →
      next.walletCommits = store.walletCommits.filter fun _ reference ↦ reference.height ≤ height) ∧
    (∀ (store : WalletStore B) height tip next,
      store.rollbackToHeight serde height = (.ok tip, next) →
      ((next.walletCommits =
          store.walletCommits.filter fun _ reference ↦ reference.height ≤ height) ↔
        ∀ (commitment : Bytes32) (reference : CommitRef),
          store.walletCommits[commitment]? = some reference → reference.height ≤ height)) ∧
    ∀ identity calls, (WalletStore.new identity : WalletStore B).LeavesNone serde calls →
      ∀ commitment reference,
        ((WalletStore.new identity).run serde calls).recordWalletCommit commitment reference =
          .error .authoritativeRecordMismatch →
        ∃ other, other ≠ reference ∧
          (WalletStore.new identity : WalletStore B).Standing serde calls commitment other := by
  refine ⟨fun store height tip next h ↦ WalletStore.rollbackToHeightOrReset_walletCommits h,
    fun store height tip next h ↦ ?_, fun identity calls hleaves commitment reference hrefused ↦ ?_⟩
  · have hsame := WalletStore.rollbackToHeight_walletCommits serde height store
    rw [h] at hsame
    rw [show next.walletCommits = store.walletCommits from hsame]
    constructor
    · intro hfilter commitment reference hrow
      rw [hfilter, ExtTreeMap.getElem?_filter', Option.filter_eq_some_iff] at hrow
      exact of_decide_eq_true hrow.2
    · intro hbelow
      refine ExtTreeMap.ext_getElem? fun commitment ↦ ?_
      rw [ExtTreeMap.getElem?_filter']
      rcases hrow : store.walletCommits[commitment]? with - | reference
      · rfl
      · exact (if_pos (decide_eq_true (hbelow commitment reference hrow))).symm
  · obtain ⟨other, hrow, hne⟩ := WalletStore.recordWalletCommit_eq_mismatch_iff.1 hrefused
    exact ⟨other, hne, WalletStore.standing_of_run identity hleaves hrow⟩

end Observations

namespace Sample

/-- A COMMIT of the wallet. -/
def ownCommit : Bytes32 := Vector.replicate 32 6

/-- Where it was mined first. -/
def firstPlace : CommitRef := ⟨1, 1, Vector.replicate 32 8⟩

/-- Where it is mined again. -/
def secondPlace : CommitRef := ⟨1, 2, Vector.replicate 32 8⟩

/-- Two blocks; the second one has the COMMIT. -/
def observeCalls : List WalletCall :=
  (deltas.take 2).map .applyDelta ++ [.recordWalletCommit ownCommit firstPlace]

/-- Another second block. -/
def remineCall : WalletCall :=
  .applyDelta ⟨some ⟨0, block0.hash⟩, some ⟨1, Vector.replicate 32 9⟩, [], []⟩

/-- **A rewound observation blocks the next one.** -/
theorem rewound_commit_refused : ∃ (store next : WalletStore HeadRecord) (tip : _),
    store = (WalletStore.new storeIdentity).run recordSerde observeCalls ∧
    store.tip = .ok (some ⟨1, block1.hash⟩) ∧
    store.rollbackToHeight recordSerde 0 = (.ok tip, next) ∧
    next.walletCommits ≠ store.walletCommits.filter (fun _ reference ↦ reference.height ≤ 0) ∧
    (next.call recordSerde remineCall).1 = .ok () ∧
    (next.call recordSerde remineCall).2.recordWalletCommit ownCommit secondPlace =
      .error .authoritativeRecordMismatch := by
  have htip : ((WalletStore.new storeIdentity).run recordSerde observeCalls).tip.toOption =
      some (some ⟨1, block1.hash⟩) := by
    decide +kernel
  have hrewind : (((WalletStore.new storeIdentity).run recordSerde observeCalls).rollbackToHeight
      recordSerde 0).1.toOption = some (some ⟨0, block0.hash⟩) := by
    decide +kernel
  have hleft : (((WalletStore.new storeIdentity).run recordSerde observeCalls).rollbackToHeight
      recordSerde 0).2.walletCommits[ownCommit]? = some firstPlace := by
    decide +kernel
  have hremine : ((((WalletStore.new storeIdentity).run recordSerde observeCalls).rollbackToHeight
      recordSerde 0).2.call recordSerde remineCall).1.toOption = some () := by
    decide +kernel
  have hstays : ((((WalletStore.new storeIdentity).run recordSerde observeCalls).rollbackToHeight
      recordSerde 0).2.call recordSerde remineCall).2.walletCommits[ownCommit]? =
        some firstPlace := by
    decide +kernel
  rw [Except.toOption_eq_some_iff] at htip hrewind hremine
  refine ⟨_, _, _, rfl, htip, Prod.ext hrewind rfl, fun hforgotten ↦ ?_, hremine,
    WalletStore.recordWalletCommit_eq_mismatch_iff.2 ⟨firstPlace, hstays, by decide⟩⟩
  -- the row is above the height
  rw [hforgotten, ExtTreeMap.getElem?_filter', Option.filter_eq_some_iff] at hleft
  exact absurd (of_decide_eq_true hleft.2) (by decide)

/-- The same blocks, rewound with a reset, and the COMMIT mined again. -/
theorem wallet_commits_forgotten_remine :
    ((WalletStore.new storeIdentity : WalletStore HeadRecord).run recordSerde
      (observeCalls ++ [.rollbackToHeightOrReset 0, remineCall])).recordWalletCommit ownCommit
        secondPlace ≠ .error .authoritativeRecordMismatch := by
  intro hrefused
  obtain ⟨-, -, hruns⟩ := wallet_commits_forgotten recordSerde
  have hdeltas : ∀ c ∈ (deltas.take 2).map WalletCall.applyDelta, ∃ delta,
    c = .applyDelta delta := by
    intro c hc
    obtain ⟨delta, -, rfl⟩ := List.mem_map.1 hc
    exact ⟨delta, rfl⟩
  have hleaves : (WalletStore.new storeIdentity : WalletStore HeadRecord).LeavesNone recordSerde
      (observeCalls ++ [.rollbackToHeightOrReset 0, remineCall]) := by
    intro before height after hcalls
    have hmem : WalletCall.rollbackToHeight height ∈
        observeCalls ++ [.rollbackToHeightOrReset 0, remineCall] := by
      rw [hcalls]
      exact List.mem_append_right _ List.mem_cons_self
    rw [observeCalls, List.append_assoc] at hmem
    rcases List.mem_append.1 hmem with hdelta | hother
    · obtain ⟨delta, heq⟩ := hdeltas _ hdelta
      exact absurd heq (by simp)
    · exact absurd hother (by simp [remineCall])
  obtain ⟨other, hne, before, after, hcalls, hsince⟩ := hruns _ _ hleaves _ _ hrefused
  have hrewound : (((WalletStore.new storeIdentity).run recordSerde observeCalls).call recordSerde
      (.rollbackToHeightOrReset 0)).1.toOption = some () := by
    decide +kernel
  -- the first record is the only one
  rw [observeCalls, List.append_assoc, List.singleton_append] at hcalls
  obtain ⟨rfl, hrecord, rfl⟩ := (List.append_cons_inj_of_notMem
    (fun hmem ↦ by obtain ⟨delta, heq⟩ := hdeltas _ hmem; exact absurd heq (by simp))
    (by simp [remineCall])).1 hcalls
  obtain ⟨-, rfl⟩ := WalletCall.recordWalletCommit.inj hrecord
  exact absurd (hsince [] _ [remineCall] 0 rfl rfl (Except.toOption_eq_some_iff.1 hrewound))
    (by decide)

end Sample

end CoppiceNames
