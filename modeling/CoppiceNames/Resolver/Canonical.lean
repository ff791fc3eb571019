import CoppiceNames.Library.Spelling
import CoppiceNames.Protocol.CodecCorrectness
import CoppiceNames.Reducer.SnapshotChecks
import CoppiceNames.Resolver.Exact

/-!
# Canonical snapshots

A snapshot that loads need not have been written by `save_snapshot`: the stored maps are lists,
which are accepted in any order, and a head's name is parsed, so it may carry the suffix `.zec`.
Nothing else is free. Every stored structure that loads as a reducer spells the one that the reducer
is saved as, and every spelling of that loads as the reducer (`snapshot_spellings`). Saving is then
a canonical form of the accepted snapshots, and loading what was saved changes nothing, whatever
bytes the state came from.

Each loader is shown to read exactly the spellings of what is written (`Reads`), from the entries
up.
-/

open Std hiding not_le not_lt

namespace CoppiceNames

/-! ### Spellings of the stored structures -/

/-- The stored heads differ at most in the suffix of the name. -/
structure StoredHead.Spells (stored written : StoredHead) : Prop where
  name : stored.name.bytes = written.name.bytes ∨
    stored.name.bytes = written.name.bytes ++ lit ".zec"
  rest : { stored with name := written.name } = written

/-- Entries under the same key with related values. -/
def SameKey {K V : Type} (R : V → V → Prop) (a b : K × V) : Prop := a.1 = b.1 ∧ R a.2 b.2

/-- The stored journals differ at most in the order of entries and in the suffixes of names. -/
structure StoredUndo.Spells (stored written : StoredUndo) : Prop where
  commits : stored.commits.Perm written.commits
  heads : Relation.Comp (List.Forall₂ (SameKey (Option.Rel StoredHead.Spells))) List.Perm
    stored.heads written.heads
  rest : { stored with commits := written.commits, heads := written.heads } = written

/-- The stored reducers differ at most in the order of their entries and in the suffixes of names.
The journals come in the same order. -/
structure StoredReducer.Spells (stored written : StoredReducer) : Prop where
  commits : stored.commits.Perm written.commits
  heads : Relation.Comp (List.Forall₂ (SameKey StoredHead.Spells)) List.Perm
    stored.heads written.heads
  history : List.Forall₂ StoredUndo.Spells stored.history written.history
  rest : { stored with
    commits := written.commits, heads := written.heads, history := written.history } = written

section Canonical

variable [Primitives] {parameters : Parameters} {network : Network}

/-! ### What each entry parser reads -/

omit [Primitives] in
theorem reads_restoreCommit (tipHeight : Option U32) :
    Reads (restoreCommit parameters tipHeight) (fun e ↦ (e.1, e.2.bytes)) Eq := by
  refine Reads.of_eq fun {a e} h ↦ ?_
  rw [restoreCommit] at h
  split at h
  · exact absurd h (by simp)
  rename_i commitment hcommitment
  split at h
  · exact absurd h (by simp)
  rw [Except.ok.injEq] at h
  rw [← h, Commitment.fromBytes_eq_ok hcommitment]

/-- Two spellings of a name restore alike. -/
theorem restoreHead_congr (tipHeight : Option U32) {stored written : StoredHead}
    (hname : Name.parse stored.name = Name.parse written.name)
    (hrest : { stored with name := written.name } = written) :
    restoreHead parameters network tipHeight stored =
      restoreHead parameters network tipHeight written := by
  rw [← hrest, restoreHead.eq_def, restoreHead.eq_def, hname]

theorem reads_restoreHead (tipHeight : Option U32) :
    Reads (restoreHead parameters network tipHeight) Head.store StoredHead.Spells := by
  intro stored head
  have hparse : Name.parse stored.name = .ok head.name ↔
      stored.name.bytes = head.store.name.bytes ∨
        stored.name.bytes = head.store.name.bytes ++ lit ".zec" := Decoder.parse_eq_ok_iff
  constructor
  · intro h
    have hstored : Name.parse stored.name = .ok head.name ∧
        { stored with name := head.store.name } = head.store := by
      rw [restoreHead.eq_def] at h
      split at h
      · exact absurd h (by simp)
      split at h
      rotate_left
      · exact absurd h (by simp)
      rename_i name ua commitment futureNf epoch expiry hname hua hcommitment hfuture hepoch hexpiry
      split at h
      · exact absurd h (by simp)
      dsimp only at h
      split at h
      · exact absurd h (by simp)
      rw [Except.ok.injEq] at h
      subst h
      refine ⟨hname, ?_⟩
      rw [Head.store, (CanonicalUa.parse_eq_ok_iff.1 hua).1,
        FieldElement.fromBytes_eq_ok hcommitment,
        FieldElement.fromBytes_eq_ok hfuture]
    obtain ⟨hname, hrest⟩ := hstored
    refine ⟨⟨hparse.1 hname, hrest⟩, ?_⟩
    rw [← restoreHead_congr tipHeight (hname.trans (Name.parse_asStr head.name).symm) hrest]
    exact h
  · intro h
    obtain ⟨hspells, hwritten⟩ := h
    have hname := hparse.2 hspells.name
    rw [restoreHead_congr tipHeight (hname.trans (Name.parse_asStr head.name).symm) hspells.rest]
    exact hwritten

theorem reads_restoreNamedHead (tipHeight : Option U32) :
    Reads (restoreNamedHead parameters network tipHeight) (fun e ↦ (e.1.bytes, e.2.store))
      (SameKey StoredHead.Spells) := by
  intro a e
  obtain ⟨key, stored⟩ := a
  obtain ⟨nameId, head⟩ := e
  have hentry : ∀ (key : Bytes32) (stored : StoredHead),
      restoreNamedHead parameters network tipHeight (key, stored) = .ok (nameId, head) ↔
        key = nameId.bytes ∧ restoreHead parameters network tipHeight stored = .ok head ∧
          head.name.id = .ok nameId := by
    intro key stored
    rw [restoreNamedHead]
    dsimp only
    constructor
    · intro h
      split at h
      · exact absurd h (by simp)
      rename_i nameId' hkey
      split at h
      · exact absurd h (by simp)
      rename_i head' hhead
      split at h
      · exact absurd h (by simp)
      rename_i hname
      rw [Except.ok.injEq, Prod.mk.injEq] at h
      obtain ⟨rfl, rfl⟩ := h
      exact ⟨(NameId.fromBytes_eq_ok hkey).symm, hhead, not_not.1 hname⟩
    · intro h
      obtain ⟨rfl, hhead, hname⟩ := h
      rw [NameId.fromBytes_bytes, hhead]
      exact if_neg (not_not.2 hname)
  rw [hentry, hentry, reads_restoreHead tipHeight stored head, SameKey]
  tauto

omit [Primitives] in
theorem reads_restoreCommitUndo (height : U32) (previousTip : Option U32) :
    Reads (restoreCommitUndo parameters height previousTip)
      (fun e ↦ (e.1, e.2.map Commitment.bytes)) Eq := by
  refine Reads.of_eq fun {a e} h ↦ ?_
  obtain ⟨reference, stored⟩ := a
  rw [restoreCommitUndo.eq_def] at h
  rcases stored with - | bytes
  · dsimp only at h
    split at h
    · exact absurd h (by simp)
    rw [Except.ok.injEq] at h
    rw [← h]
    rfl
  · dsimp only at h
    split at h
    · exact absurd h (by simp)
    rename_i commitment hcommitment
    split at h
    · exact absurd h (by simp)
    rw [Except.ok.injEq] at h
    rw [← h, Option.map_some, Commitment.fromBytes_eq_ok hcommitment]

theorem reads_restoreHeadUndo (previousTip : Option U32) :
    Reads (restoreHeadUndo parameters network previousTip)
      (fun e ↦ (e.1.bytes, e.2.map Head.store)) (SameKey (Option.Rel StoredHead.Spells)) := by
  intro a e
  obtain ⟨key, stored⟩ := a
  obtain ⟨nameId, recorded⟩ := e
  have hentry : ∀ (key : Bytes32) (stored : Option StoredHead),
      restoreHeadUndo parameters network previousTip (key, stored) = .ok (nameId, recorded) ↔
        key = nameId.bytes ∧ Option.Rel (fun stored head ↦
          restoreHead parameters network previousTip stored = .ok head ∧
            head.name.id = .ok nameId) stored recorded := by
    intro key stored
    rw [restoreHeadUndo]
    dsimp only
    constructor
    · intro h
      split at h
      · exact absurd h (by simp)
      rename_i nameId' hkey
      split at h
      · rw [Except.ok.injEq, Prod.mk.injEq] at h
        obtain ⟨rfl, rfl⟩ := h
        exact ⟨(NameId.fromBytes_eq_ok hkey).symm, .none⟩
      · split at h
        · exact absurd h (by simp)
        rename_i head hhead
        split at h
        · exact absurd h (by simp)
        rename_i hname
        rw [Except.ok.injEq, Prod.mk.injEq] at h
        obtain ⟨rfl, rfl⟩ := h
        exact ⟨(NameId.fromBytes_eq_ok hkey).symm, .some ⟨hhead, not_not.1 hname⟩⟩
    · intro h
      obtain ⟨rfl, hvalue⟩ := h
      rw [NameId.fromBytes_bytes]
      rcases hvalue with ⟨hhead, hname⟩ | -
      · dsimp only
        rw [hhead]
        exact if_neg (not_not.2 hname)
      · rfl
  rw [hentry, hentry, SameKey]
  rcases recorded with - | head <;> rcases stored with - | stored
  · simp
  · simp
  · simp
  · have hread : restoreHead parameters network previousTip stored = .ok head ↔ _ :=
      reads_restoreHead previousTip stored head
    simp only [Option.map_some, Option.rel_some_some]
    tauto

/-! ### Journals and reducers -/

/-- `restore_undo`, read off the journal it gives. -/
theorem restoreUndo_eq_ok_iff {tipHeight : Option U32} {stored : StoredUndo} {undo : Undo} :
    restoreUndo parameters network tipHeight stored = .ok undo ↔
      { stored with commits := undo.store.commits, heads := undo.store.heads } = undo.store ∧
      ¬ (tipHeight.all (fun tip ↦ undo.height > tip) ∨
        undo.previousNextHeight ≠ some undo.height ∨
        undo.previousTipHeight ≠ if undo.height = parameters.activationHeight then none
          else U32.checkedSub undo.height 1) ∧
      OrderedMap.loadAll (restoreCommitUndo parameters undo.height undo.previousTipHeight)
        .invalidHistory ∅ stored.commits = .ok undo.commits ∧
      OrderedMap.loadAll (restoreHeadUndo parameters network undo.previousTipHeight)
        .invalidHistory ∅ stored.heads = .ok undo.heads := by
  rw [restoreUndo]
  constructor
  · intro h
    generalize hexpected : (if stored.height = parameters.activationHeight then none
      else U32.checkedSub stored.height 1) = expected at h
    split at h
    · exact absurd h (by simp)
    rename_i hposition
    split at h
    · exact absurd h (by simp)
    rename_i commits hcommits
    split at h
    · exact absurd h (by simp)
    rename_i heads hheads
    rw [Except.ok.injEq] at h
    subst h
    rw [← hexpected] at hposition
    exact ⟨rfl, hposition, hcommits, hheads⟩
  · intro h
    obtain ⟨hrest, hposition, hcommits, hheads⟩ := h
    have hheight : stored.height = undo.height := congrArg StoredUndo.height hrest
    have hnext : stored.previousNextHeight = undo.previousNextHeight :=
      congrArg StoredUndo.previousNextHeight hrest
    have htip : stored.previousTipHeight = undo.previousTipHeight :=
      congrArg StoredUndo.previousTipHeight hrest
    have hhash : stored.hash = undo.hash := congrArg StoredUndo.hash hrest
    have hparent : stored.previousHash = undo.previousHash := congrArg StoredUndo.previousHash hrest
    rw [hheight, hnext, htip, hhash, hparent, if_neg hposition, hcommits, hheads]

/-- **Journals**: the entries in any order. -/
theorem reads_restoreUndo (tipHeight : Option U32) :
    Reads (restoreUndo parameters network tipHeight) Undo.store StoredUndo.Spells := by
  intro stored undo
  have hcommits : OrderedMap.loadAll (restoreCommitUndo parameters undo.height
      undo.previousTipHeight) .invalidHistory ∅ stored.commits = .ok undo.commits ↔ _ :=
    (reads_restoreCommitUndo _ _).loadAll _ _ _
  have hheads : OrderedMap.loadAll (restoreHeadUndo parameters network undo.previousTipHeight)
      .invalidHistory ∅ stored.heads = .ok undo.heads ↔ _ :=
    (reads_restoreHeadUndo _).loadAll _ _ _
  rw [restoreUndo_eq_ok_iff, restoreUndo_eq_ok_iff, hcommits, hheads, List.forall₂_eq_eq_eq]
  constructor
  · intro h
    obtain ⟨hrest, hposition, ⟨⟨_, rfl, hperm⟩, hcommits⟩, hspelled, hheads⟩ := h
    exact ⟨⟨hperm, hspelled, hrest⟩, rfl, hposition, hcommits, hheads⟩
  · intro h
    obtain ⟨hspells, -, hposition, hcommits, hheads⟩ := h
    exact ⟨hspells.rest, hposition, ⟨⟨_, rfl, hspells.commits⟩, hcommits⟩, hspells.heads, hheads⟩

/-- `load_snapshot`, read off the reducer it gives. -/
theorem restore_eq_ok_iff_store {verifier : ProofVerifier} {valid : parameters.Valid}
    {stored : StoredReducer} {reducer : Reducer} :
    Reducer.restore parameters network verifier valid stored = .ok reducer ↔
      { stored with
        commits := reducer.store.commits
        heads := reducer.store.heads
        history := reducer.store.history } = reducer.store ∧
      reducer.rules = ⟨parameters, verifier, valid⟩ ∧ reducer.toRecords.Indexed ∧
      validateTip parameters reducer.nextHeight reducer.tipHeight = .ok () ∧
      validateHistory reducer.tipHeight reducer.previousHash reducer.history = .ok () ∧
      OrderedMap.loadAll (restoreCommit parameters reducer.tipHeight) .invalidState ∅
        stored.commits = .ok reducer.commits ∧
      OrderedMap.loadAll (restoreNamedHead parameters network reducer.tipHeight) .invalidState ∅
        stored.heads = .ok reducer.heads ∧
      stored.history.mapM (restoreUndo parameters network reducer.tipHeight) =
        .ok reducer.history := by
  rw [Reducer.restore_eq_ok_iff]
  constructor
  · intro h
    obtain ⟨hversion, hdeployment, hfingerprint, rfl, htip, commits, heads, history, hcommits,
      hheads, hhistory, hlinked, hrange, rfl⟩ := h
    have hindexed := Records.indexed_rebuild ⟨commits, heads, ∅, ∅, ∅, ∅⟩
    have hrecords := Records.rebuildDerivedIndexes_eq ⟨commits, heads, ∅, ∅, ∅, ∅⟩
    refine ⟨?_, rfl, hindexed, htip, hlinked, ?_, ?_, hhistory⟩
    · rw [Reducer.store, ← hversion, ← hdeployment, ← hfingerprint, ← hrange]
    · rw [hrecords]
      exact hcommits
    · rw [hrecords]
      exact hheads
  · intro h
    obtain ⟨hrest, hrules, hindexed, htip, hlinked, hcommits, hheads, hhistory⟩ := h
    have hnext : stored.nextHeight = reducer.nextHeight := congrArg StoredReducer.nextHeight hrest
    have htips : stored.tipHeight = reducer.tipHeight := congrArg StoredReducer.tipHeight hrest
    have hhash : stored.previousHash = reducer.previousHash :=
      congrArg StoredReducer.previousHash hrest
    have hparameters : reducer.rules.parameters = parameters := by rw [hrules]
    rw [hnext, htips, hhash]
    refine ⟨congrArg StoredReducer.formatVersion hrest,
      (congrArg StoredReducer.deploymentId hrest).trans (by rw [← hparameters]; rfl),
      congrArg StoredReducer.rulesetFingerprint hrest,
      (congrArg StoredReducer.parameters hrest).trans hparameters, htip, reducer.commits,
      reducer.heads, reducer.history, hcommits, hheads, hhistory, hlinked,
      congrArg StoredReducer.rollbackRange hrest, ?_⟩
    -- the rebuilt indexes are the ones the reducer had
    have hrecords : (Records.mk reducer.commits reducer.heads ∅ ∅ ∅ ∅).rebuildDerivedIndexes =
        reducer.toRecords :=
      (Records.indexed_iff_rebuild reducer.toRecords).1 hindexed
    rw [hrecords, ← hrules]

/-- **Reducers**: the entries in any order, the journals in theirs. -/
theorem reads_restore (verifier : ProofVerifier) (valid : parameters.Valid) :
    Reads (Reducer.restore parameters network verifier valid) Reducer.store
      StoredReducer.Spells := by
  intro stored reducer
  have hcommits : OrderedMap.loadAll (restoreCommit parameters reducer.tipHeight) .invalidState ∅
      stored.commits = .ok reducer.commits ↔ _ := (reads_restoreCommit _).loadAll _ _ _
  have hheads : OrderedMap.loadAll (restoreNamedHead parameters network reducer.tipHeight)
      .invalidState ∅ stored.heads = .ok reducer.heads ↔ _ :=
    (reads_restoreNamedHead _).loadAll _ _ _
  have hhistory : stored.history.mapM (restoreUndo parameters network reducer.tipHeight) =
      .ok reducer.history ↔ _ := (reads_restoreUndo _).mapM _ _
  rw [restore_eq_ok_iff_store, restore_eq_ok_iff_store, hcommits, hheads, hhistory,
    List.forall₂_eq_eq_eq]
  constructor
  · intro h
    obtain ⟨hrest, hrules, hindexed, htip, hlinked, ⟨⟨_, rfl, hperm⟩, hcommits⟩, ⟨hspelled, hheads⟩,
      hjournals, hhistory⟩ := h
    exact ⟨⟨hperm, hspelled, hjournals, hrest⟩, rfl, hrules, hindexed, htip, hlinked, hcommits,
      hheads, hhistory⟩
  · intro h
    obtain ⟨hspells, -, hrules, hindexed, htip, hlinked, hcommits, hheads, hhistory⟩ := h
    exact ⟨hspells.rest, hrules, hindexed, htip, hlinked, ⟨⟨_, rfl, hspells.commits⟩, hcommits⟩,
      ⟨hspells.heads, hheads⟩, hspells.history, hhistory⟩

/-! ### Snapshots -/

/-- The stored resolver spells the saved one: its own fields are the saved ones and its reducer is a
spelling of the saved reducer. -/
structure StoredExactResolver.Spells {B : Type} (serde : Serde B StoredReducer)
    (stored : StoredExactResolver B) (resolver : ExactResolver) : Prop where
  formatVersion : stored.formatVersion = exactResolverSnapshotFormatVersion
  name : stored.name = resolver.name.asStr
  deploymentId : stored.deploymentId = resolver.reducer.rules.parameters.deploymentId
  rulesetFingerprint : stored.rulesetFingerprint = CoppiceNames.rulesetFingerprint
  rollbackRange : stored.rollbackRange = CoppiceNames.rollbackRange resolver.reducer.history
  reducer : ∃ inner, serde.fromSlice stored.reducer = some inner ∧
    inner.Spells resolver.reducer.store

variable {B : Type} {serde : Serde B StoredReducer} {exactSerde : Serde B (StoredExactResolver B)}
  {verifier : ProofVerifier} {bytes : B}

/-- The bytes that load as a reducer are those of the spellings of its saved form. -/
theorem Reducer.loadSnapshot_iff {reducer : Reducer}
    (hload : Reducer.loadSnapshot serde parameters network verifier bytes = .ok reducer)
    (other : B) : Reducer.loadSnapshot serde parameters network verifier other = .ok reducer ↔
      ∃ stored, serde.fromSlice other = some stored ∧ stored.Spells reducer.store := by
  obtain ⟨valid, stored, -, hrestore⟩ := Reducer.loadSnapshot_eq_ok hload
  have hreads : Reads (Reducer.restore parameters network verifier valid) Reducer.store
      StoredReducer.Spells := reads_restore verifier valid
  constructor
  · intro hother
    obtain ⟨valid', stored', hstored', hrestore'⟩ := Reducer.loadSnapshot_eq_ok hother
    exact ⟨stored', hstored', ((hreads _ _).1 hrestore').1⟩
  · intro hother
    obtain ⟨stored', hstored', hspells⟩ := hother
    rw [Reducer.loadSnapshot]
    split
    · rename_i e he
      rw [Parameters.validate_eq_ok_iff.2 valid] at he
      exact absurd he (by simp)
    · rw [hstored']
      exact (hreads.iff_of_read hrestore).2 hspells

theorem Reducer.rules_of_load {reducer : Reducer}
    (hload : Reducer.loadSnapshot serde parameters network verifier bytes = .ok reducer) :
    reducer.rules.parameters = parameters := by
  obtain ⟨valid, stored, -, hrestore⟩ := Reducer.loadSnapshot_eq_ok hload
  rw [(restore_eq_ok_iff_store.1 hrestore).2.1]

/-- A loaded reducer is saved as a spelling of itself. -/
theorem StoredReducer.Spells.refl_of_load {reducer : Reducer}
    (hload : Reducer.loadSnapshot serde parameters network verifier bytes = .ok reducer) :
    StoredReducer.Spells reducer.store reducer.store := by
  obtain ⟨valid, stored, -, hrestore⟩ := Reducer.loadSnapshot_eq_ok hload
  have hreads : Reads (Reducer.restore parameters network verifier valid) Reducer.store
      StoredReducer.Spells := reads_restore verifier valid
  exact ((hreads _ _).1 ((hreads _ _).1 hrestore).2).1

/-- `ExactResolver::load_snapshot`, read off the resolver it gives. -/
theorem ExactResolver.loadSnapshot_eq_ok_iff {name : Name} {resolver : ExactResolver} {bytes : B} :
    ExactResolver.loadSnapshot serde exactSerde parameters network name verifier bytes =
      .ok resolver ↔ ∃ stored, exactSerde.fromSlice bytes = some stored ∧
        stored.formatVersion = exactResolverSnapshotFormatVersion ∧ stored.name = name.asStr ∧
        stored.deploymentId = parameters.deploymentId ∧
        stored.rulesetFingerprint = rulesetFingerprint ∧ resolver.name = name ∧
        Reducer.loadSnapshot serde parameters network verifier stored.reducer =
          .ok resolver.reducer ∧ resolver.reducer.isExactFor resolver.nameId = true ∧
        stored.rollbackRange = rollbackRange resolver.reducer.history := by
  rw [ExactResolver.loadSnapshot]
  constructor
  · intro h
    split at h
    · exact absurd h (by simp)
    rename_i stored hstored
    split at h
    · exact absurd h (by simp)
    rename_i hversion
    split at h
    · exact absurd h (by simp)
    rename_i hname
    split at h
    · exact absurd h (by simp)
    rename_i hidentity
    split at h
    · exact absurd h (by simp)
    split at h
    · exact absurd h (by simp)
    rename_i reducer hreducer
    split at h
    · exact absurd h (by simp)
    rename_i hexact
    split at h
    · exact absurd h (by simp)
    rename_i hrange
    rw [Except.ok.injEq] at h
    subst h
    rw [not_or, not_not, not_not] at hidentity
    exact ⟨stored, hstored, not_not.1 hversion, not_not.1 hname, hidentity.1, hidentity.2, rfl,
      hreducer, Bool.not_eq_false _ ▸ hexact, (not_not.1 hrange).symm⟩
  · intro h
    obtain ⟨stored, hstored, hversion, hname, hdeployment, hfingerprint, rfl, hreducer, hexact,
      hrange⟩ := h
    rw [hstored]
    dsimp only
    rw [if_neg (not_not.2 hversion), if_neg (not_not.2 hname),
      if_neg (by simp [hdeployment, hfingerprint])]
    split
    · rename_i e hid
      rw [resolver.id_eq] at hid
      exact absurd hid (by simp)
    · rename_i nameId hid
      have hsame := resolver.id_eq
      rw [hid, Except.ok.injEq] at hsame
      subst hsame
      rw [hreducer]
      dsimp only
      rw [if_neg (by simp [hexact]), if_neg (not_not.2 hrange.symm)]

/-- **Spellings of a snapshot.** Whatever bytes a reducer was loaded from, saving it and loading the
result gives it back, and the bytes that load as it are those whose stored structure is the saved
one up to the order of map entries and the suffix `.zec` of head names. The same holds of an exact
resolver. -/
theorem snapshot_spellings (hserde : serde.RoundTrips) (hexact : exactSerde.RoundTrips)
    (parameters : Parameters) (network : Network) (verifier : ProofVerifier) :
    (∀ bytes reducer,
      Reducer.loadSnapshot serde parameters network verifier bytes = .ok reducer →
      (∃ saved, reducer.saveSnapshot serde = .ok saved ∧
        Reducer.loadSnapshot serde parameters network verifier saved = .ok reducer) ∧
      ∀ other, Reducer.loadSnapshot serde parameters network verifier other = .ok reducer ↔
        ∃ stored, serde.fromSlice other = some stored ∧ stored.Spells reducer.store) ∧
    ∀ name bytes resolver,
      ExactResolver.loadSnapshot serde exactSerde parameters network name verifier bytes =
        .ok resolver →
      (∃ saved, resolver.saveSnapshot serde exactSerde = .ok saved ∧
        ExactResolver.loadSnapshot serde exactSerde parameters network name verifier saved =
          .ok resolver) ∧
      ∀ other, ExactResolver.loadSnapshot serde exactSerde parameters network name verifier other =
          .ok resolver ↔
        ∃ stored, exactSerde.fromSlice other = some stored ∧ stored.Spells serde resolver := by
  have hreducer : ∀ bytes reducer,
      Reducer.loadSnapshot serde parameters network verifier bytes = .ok reducer →
      ∃ saved, reducer.saveSnapshot serde = .ok saved ∧
        Reducer.loadSnapshot serde parameters network verifier saved = .ok reducer := by
    intro bytes reducer hload
    obtain ⟨saved, hwrite, hread⟩ := hserde reducer.store
    refine ⟨saved, by rw [Reducer.saveSnapshot, hwrite], ?_⟩
    exact (Reducer.loadSnapshot_iff hload saved).2 ⟨reducer.store, hread, .refl_of_load hload⟩
  refine ⟨fun bytes reducer hload ↦ ⟨hreducer bytes reducer hload, Reducer.loadSnapshot_iff hload⟩,
    fun name bytes resolver hload ↦ ?_⟩
  obtain ⟨stored, -, -, -, -, -, hname, hinner, hexactFor, -⟩ :=
    ExactResolver.loadSnapshot_eq_ok_iff.1 hload
  have hrules := Reducer.rules_of_load hinner
  have hspells : ∀ other, ExactResolver.loadSnapshot serde exactSerde parameters network name
      verifier other = .ok resolver ↔
        ∃ stored, exactSerde.fromSlice other = some stored ∧ stored.Spells serde resolver := by
    intro other
    rw [ExactResolver.loadSnapshot_eq_ok_iff]
    constructor
    · intro h
      obtain ⟨stored', hstored', hversion, hname', hdeployment, hfingerprint, -, hreducer', -,
        hrange⟩ := h
      exact ⟨stored', hstored', hversion, hname'.trans (by rw [hname]),
        hdeployment.trans (by rw [hrules]), hfingerprint, hrange,
        (Reducer.loadSnapshot_iff hinner _).1 hreducer'⟩
    · intro h
      obtain ⟨stored', hstored', h⟩ := h
      exact ⟨stored', hstored', h.formatVersion, h.name.trans (by rw [hname]),
        h.deploymentId.trans (by rw [hrules]), h.rulesetFingerprint, hname,
        (Reducer.loadSnapshot_iff hinner _).2 h.reducer, hexactFor, h.rollbackRange⟩
  refine ⟨?_, hspells⟩
  obtain ⟨inner, hsave, hinner'⟩ := hreducer _ _ hinner
  obtain ⟨saved, hwrite, hread⟩ := hexact
    { formatVersion := exactResolverSnapshotFormatVersion
      deploymentId := resolver.reducer.rules.parameters.deploymentId
      rulesetFingerprint := rulesetFingerprint
      rollbackRange := rollbackRange resolver.reducer.history
      name := resolver.name.asStr
      reducer := inner }
  refine ⟨saved, by rw [ExactResolver.saveSnapshot, hsave]; dsimp only; rw [hwrite], ?_⟩
  exact (hspells saved).2 ⟨_, hread, rfl, rfl, rfl, rfl, rfl,
    (Reducer.loadSnapshot_iff hinner inner).1 hinner'⟩

end Canonical

/-! ### A suffixed name -/

namespace Sample

/-- The name `alice` with its suffix. -/
def suffixedAlice : Str := ⟨lit "alice.zec", ⟨"alice.zec".toList, by decide⟩⟩

/-- A snapshot whose head is stored under the suffixed name. -/
def suffixedSnapshot : StoredReducer :=
  { expiredSnapshot 5 with
    heads := (expiredSnapshot 5).heads.map fun e ↦ (e.1, { e.2 with name := suffixedAlice }) }

/-- The suffixed snapshot, stored for an exact resolver. -/
def suffixedResolver : StoredExactResolver Document where
  formatVersion := exactResolverSnapshotFormatVersion
  deploymentId := parameters.deploymentId
  rulesetFingerprint := rulesetFingerprint
  rollbackRange := none
  name := alice.asStr
  reducer := .reducer suffixedSnapshot

/-- The suffixed snapshot loads, is saved without the suffix and loads again; so it is for the
resolver. -/
theorem snapshot_spellings_suffixed :
    (∃ reducer, Reducer.loadSnapshot serde parameters .regtest verifier
        (.reducer suffixedSnapshot) = .ok reducer ∧ reducer.store ≠ suffixedSnapshot ∧
      ∃ saved, reducer.saveSnapshot serde = .ok saved ∧
        Reducer.loadSnapshot serde parameters .regtest verifier saved = .ok reducer) ∧
    ∃ resolver, ExactResolver.loadSnapshot serde exactSerde parameters .regtest alice verifier
        (.resolver suffixedResolver) = .ok resolver ∧
      ∃ saved, resolver.saveSnapshot serde exactSerde = .ok saved ∧
        ExactResolver.loadSnapshot serde exactSerde parameters .regtest alice verifier saved =
          .ok resolver := by
  have hspellings := snapshot_spellings serde_roundTrips exactSerde_roundTrips parameters .regtest
    verifier
  have hloads : ((Reducer.loadSnapshot serde parameters .regtest verifier
      (.reducer suffixedSnapshot)).toOption.map fun reducer ↦
        decide (reducer.store = suffixedSnapshot)) = some false := by decide +kernel
  have hexact : (ExactResolver.loadSnapshot serde exactSerde parameters .regtest alice verifier
      (.resolver suffixedResolver)).isOk = true := by decide +kernel
  rw [Option.map_eq_some_iff] at hloads
  obtain ⟨reducer, hreducer, hstore⟩ := hloads
  rw [Except.toOption_eq_some_iff] at hreducer
  rcases hresolver : ExactResolver.loadSnapshot serde exactSerde parameters .regtest alice verifier
      (.resolver suffixedResolver) with e | resolver
  · rw [hresolver] at hexact
    exact absurd hexact Bool.false_ne_true
  · exact ⟨⟨reducer, hreducer, of_decide_eq_false hstore, (hspellings.1 _ _ hreducer).1⟩,
      resolver, rfl, (hspellings.2 _ _ _ hresolver).1⟩

end Sample

end CoppiceNames
