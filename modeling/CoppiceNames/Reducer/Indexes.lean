import CoppiceNames.Reducer.Apply

/-!
# The derived indexes

`Records.Indexed` says what the four indexes of a reducer should hold: every COMMIT under its
height, every head under its future nullifier, and under its expiry or its terminal height as long
as it is active or terminal. It is the same as being what `rebuild_derived_indexes` computes
(`indexed_iff_rebuild`), and the two record writes keep it (`Indexed.replaceCommit`,
`Indexed.replaceHead`).
-/

open Std

namespace CoppiceNames

section Indexes

variable [Primitives]

/-- The four indexes hold exactly the entries of the records. -/
structure Records.Indexed (records : Records) : Prop where
  commitsByHeight : records.commitsByHeight.Indexes fun reference ↦
    records.commits[reference]?.bind fun _ ↦ some reference.height
  headsByFutureNf : records.headsByFutureNf.Indexes fun nameId ↦
    records.heads[nameId]?.bind fun head ↦ some head.futureNf.bytes
  activeHeadsByExpiry : records.activeHeadsByExpiry.Indexes fun nameId ↦
    records.heads[nameId]?.bind Head.activeExpiry
  terminalHeadsByHeight : records.terminalHeadsByHeight.Indexes fun nameId ↦
    records.heads[nameId]?.bind Head.terminalHeight

namespace Records

theorem indexed_empty : Records.empty.Indexed where
  commitsByHeight := by simpa [empty] using InvertedIndex.Indexes.empty
  headsByFutureNf := by simpa [empty] using InvertedIndex.Indexes.empty
  activeHeadsByExpiry := by simpa [empty] using InvertedIndex.Indexes.empty
  terminalHeadsByHeight := by simpa [empty] using InvertedIndex.Indexes.empty

/-! ### The record writes, field by field -/

/-- `replace_commit` writes one record and moves one index entry. -/
theorem replaceCommit_eq (records : Records) (reference : CommitRef)
    (commitment : Option Commitment) : records.replaceCommit reference commitment =
      { records with
        commits := OrderedMap.put records.commits reference commitment
        commitsByHeight := records.commitsByHeight.replaceEntry reference
          (records.commits[reference]?.bind fun _ ↦ some reference.height)
          (commitment.bind fun _ ↦ some reference.height) } := by
  unfold replaceCommit
  rcases hold : records.commits[reference]? with - | old <;> rcases commitment with - | new
  · ext1 <;> simp [OrderedMap.put, InvertedIndex.replaceEntry,
      OrderedMap.erase_of_getElem?_eq_none hold]
  · ext1 <;> simp [OrderedMap.put, InvertedIndex.replaceEntry, fileCommit]
  · ext1 <;> simp [OrderedMap.put, InvertedIndex.replaceEntry]
  · ext1 <;> simp [OrderedMap.put, InvertedIndex.replaceEntry, fileCommit,
      OrderedMap.insert_erase]

/-- `replace_head` writes one record and moves one entry of each head index. -/
theorem replaceHead_eq (records : Records) (nameId : NameId) (head : Option Head) :
    records.replaceHead nameId head =
      { records with
        heads := OrderedMap.put records.heads nameId head
        headsByFutureNf := records.headsByFutureNf.replaceEntry nameId
          (records.heads[nameId]?.bind fun head ↦ some head.futureNf.bytes)
          (head.bind fun head ↦ some head.futureNf.bytes)
        activeHeadsByExpiry := records.activeHeadsByExpiry.replaceEntry nameId
          (records.heads[nameId]?.bind Head.activeExpiry) (head.bind Head.activeExpiry)
        terminalHeadsByHeight := records.terminalHeadsByHeight.replaceEntry nameId
          (records.heads[nameId]?.bind Head.terminalHeight) (head.bind Head.terminalHeight) } := by
  unfold replaceHead
  rcases hold : records.heads[nameId]? with - | old <;> rcases head with - | new
  · ext1 <;> simp [OrderedMap.put, InvertedIndex.replaceEntry,
      OrderedMap.erase_of_getElem?_eq_none hold]
  · rcases hnew : new.terminalHeight with - | height <;> ext1 <;>
      simp [OrderedMap.put, InvertedIndex.replaceEntry, fileHead, Head.activeExpiry, hnew]
  · rcases hterm : old.terminalHeight with - | height <;> ext1 <;>
      simp [OrderedMap.put, InvertedIndex.replaceEntry, Head.activeExpiry, hterm]
  · rcases hterm : old.terminalHeight with - | height <;>
      rcases hnew : new.terminalHeight with - | height' <;> ext1 <;>
      simp [OrderedMap.put, InvertedIndex.replaceEntry, fileHead, Head.activeExpiry, hterm, hnew,
        OrderedMap.insert_erase]

@[simp]
theorem replaceCommit_commits (records : Records) (reference : CommitRef)
    (commitment : Option Commitment) : (records.replaceCommit reference commitment).commits =
      OrderedMap.put records.commits reference commitment := by
  rw [replaceCommit_eq]

@[simp]
theorem replaceCommit_heads (records : Records) (reference : CommitRef)
    (commitment : Option Commitment) :
    (records.replaceCommit reference commitment).heads = records.heads := by
  rw [replaceCommit_eq]

@[simp]
theorem replaceHead_commits (records : Records) (nameId : NameId) (head : Option Head) :
    (records.replaceHead nameId head).commits = records.commits := by
  rw [replaceHead_eq]

@[simp]
theorem replaceHead_heads (records : Records) (nameId : NameId) (head : Option Head) :
    (records.replaceHead nameId head).heads = OrderedMap.put records.heads nameId head := by
  rw [replaceHead_eq]

/-! ### Maintenance -/

theorem Indexed.replaceCommit {records : Records} (h : records.Indexed) (reference : CommitRef)
    (commitment : Option Commitment) : (records.replaceCommit reference commitment).Indexed := by
  rw [replaceCommit_eq]
  exact ⟨h.commitsByHeight.put (fun reference _ ↦ some reference.height) reference commitment,
    h.headsByFutureNf, h.activeHeadsByExpiry, h.terminalHeadsByHeight⟩

theorem Indexed.replaceHead {records : Records} (h : records.Indexed) (nameId : NameId)
    (head : Option Head) : (records.replaceHead nameId head).Indexed := by
  rw [replaceHead_eq]
  exact ⟨h.commitsByHeight,
    h.headsByFutureNf.put (fun _ head ↦ some head.futureNf.bytes) nameId head,
    h.activeHeadsByExpiry.put (fun _ ↦ Head.activeExpiry) nameId head,
    h.terminalHeadsByHeight.put (fun _ ↦ Head.terminalHeight) nameId head⟩

/-! ### Rebuilding -/

theorem foldl_fileCommit (references : List CommitRef) (records : Records) :
    references.foldl fileCommit records =
      { records with
        commitsByHeight :=
          records.commitsByHeight.build (fun reference ↦ some reference.height) references } := by
  induction references generalizing records with
  | nil => rfl
  | cons reference references ih =>
    rw [List.foldl_cons, ih]
    rfl

/-- Filing the heads builds each head index on its own. -/
theorem foldl_fileHead (heads : OrderedMap NameId Head) {entries : List (NameId × Head)}
    (hentries : ∀ e ∈ entries, heads[e.1]? = some e.2) (records : Records) :
    entries.foldl (fun filed entry ↦ filed.fileHead entry.1 entry.2) records =
      { records with
        headsByFutureNf := records.headsByFutureNf.build
          (fun nameId ↦ heads[nameId]?.bind fun head ↦ some head.futureNf.bytes)
          (entries.map Prod.fst)
        activeHeadsByExpiry := records.activeHeadsByExpiry.build
          (fun nameId ↦ heads[nameId]?.bind Head.activeExpiry) (entries.map Prod.fst)
        terminalHeadsByHeight := records.terminalHeadsByHeight.build
          (fun nameId ↦ heads[nameId]?.bind Head.terminalHeight) (entries.map Prod.fst) } := by
  induction entries generalizing records with
  | nil => rfl
  | cons e entries ih =>
    have he : heads[e.1]? = some e.2 := hentries e List.mem_cons_self
    rw [List.foldl_cons, ih fun e' he' ↦ hentries e' (List.mem_cons_of_mem e he')]
    rcases hterm : e.2.terminalHeight with - | height <;>
      simp [InvertedIndex.build, fileHead, he, hterm, Head.activeExpiry]

/-- What `rebuild_derived_indexes` computes, index by index. -/
theorem rebuildDerivedIndexes_eq (records : Records) : records.rebuildDerivedIndexes =
    { records with
      commitsByHeight := (∅ : InvertedIndex U32 CommitRef).build
        (fun reference ↦ some reference.height) records.commits.keys
      headsByFutureNf := (∅ : InvertedIndex Bytes32 NameId).build
        (fun nameId ↦ records.heads[nameId]?.bind fun head ↦ some head.futureNf.bytes)
        records.heads.keys
      activeHeadsByExpiry := (∅ : InvertedIndex U32 NameId).build
        (fun nameId ↦ records.heads[nameId]?.bind Head.activeExpiry) records.heads.keys
      terminalHeadsByHeight := (∅ : InvertedIndex U32 NameId).build
        (fun nameId ↦ records.heads[nameId]?.bind Head.terminalHeight) records.heads.keys } := by
  rw [rebuildDerivedIndexes, foldl_fileCommit, foldl_fileHead records.heads fun e he ↦
    OrderedMap.getElem?_eq_some_iff_mem_toList.2 he, ExtTreeMap.map_fst_toList_eq_keys]

/-- Rebuilt indexes hold exactly the entries of the records. -/
theorem indexed_rebuild (records : Records) : records.rebuildDerivedIndexes.Indexed := by
  rw [rebuildDerivedIndexes_eq]
  exact
    ⟨.build_keys fun reference _ _ ↦ rfl,
      .build_keys fun nameId head h ↦ by rw [h]; rfl,
      .build_keys fun nameId head h ↦ by rw [h]; rfl,
      .build_keys fun nameId head h ↦ by rw [h]; rfl⟩

/-- **The maintained indexes are the rebuilt ones.** -/
theorem indexed_iff_rebuild (records : Records) :
    records.Indexed ↔ records.rebuildDerivedIndexes = records := by
  constructor
  · intro h
    have hrebuilt := indexed_rebuild records
    have hcommits : records.rebuildDerivedIndexes.commits = records.commits := by
      rw [rebuildDerivedIndexes_eq]
    have hheads : records.rebuildDerivedIndexes.heads = records.heads := by
      rw [rebuildDerivedIndexes_eq]
    have h₁ := hrebuilt.commitsByHeight
    have h₂ := hrebuilt.headsByFutureNf
    have h₃ := hrebuilt.activeHeadsByExpiry
    have h₄ := hrebuilt.terminalHeadsByHeight
    rw [hcommits] at h₁
    rw [hheads] at h₂ h₃ h₄
    exact Records.ext hcommits hheads (h₁.unique h.commitsByHeight) (h₂.unique h.headsByFutureNf)
      (h₃.unique h.activeHeadsByExpiry) (h₄.unique h.terminalHeadsByHeight)
  · intro h
    rw [← h]
    exact indexed_rebuild records

end Records

end Indexes

end CoppiceNames
