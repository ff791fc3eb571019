import CoppiceNames.Reducer.Indexes
import CoppiceNames.Reducer.Scan

/-!
# The phases of a block, indexed and scanning

Each phase of the indexed reducer does to the authoritative records what the scanning phase does,
and keeps the indexes and the journal right. What a phase keeps is `Tracks`: the records are
indexed, and the journal accounts for every change since the start of the block.

`Tracks` also bounds the keys that were journaled: `C` and `H` are the COMMIT references and the
names a block may touch.
-/

open Std

namespace CoppiceNames

section Refinement

variable [Primitives]

namespace OpenBlock

theorem writeHead_ledger (o : OpenBlock) (nameId : NameId) (head : Option Head) :
    (o.writeHead nameId head).records.ledger =
      ⟨o.records.commits, OrderedMap.put o.records.heads nameId head⟩ := by
  rw [writeHead, Records.ledger, Records.replaceHead_commits, Records.replaceHead_heads]

theorem writeCommit_ledger (o : OpenBlock) (reference : CommitRef)
    (commitment : Option Commitment) : (o.writeCommit reference commitment).records.ledger =
      ⟨OrderedMap.put o.records.commits reference commitment, o.records.heads⟩ := by
  rw [writeCommit, Records.ledger, Records.replaceCommit_commits, Records.replaceCommit_heads]

end OpenBlock

/-- The records are indexed and the journal leads back to `base`, touching only `C` and `H`. -/
structure Tracks (base : Ledger) (C : Set CommitRef) (H : Set NameId) (o : OpenBlock) : Prop where
  indexed : o.records.Indexed
  commits : OrderedMap.Journals o.journal.commits base.commits o.records.commits
  heads : OrderedMap.Journals o.journal.heads base.heads o.records.heads
  commit_mem : ∀ reference ∈ o.journal.commits, reference ∈ C
  head_mem : ∀ nameId ∈ o.journal.heads, nameId ∈ H
  base_commit_mem : ∀ reference ∈ base.commits, reference ∈ C
  base_head_mem : ∀ nameId ∈ base.heads, nameId ∈ H

namespace Tracks

variable {base : Ledger} {C : Set CommitRef} {H : Set NameId} {o : OpenBlock}

theorem writeHead (h : Tracks base C H o) {nameId : NameId} (hmem : nameId ∈ H)
    (head : Option Head) : Tracks base C H (o.writeHead nameId head) where
  indexed := h.indexed.replaceHead nameId head
  commits := by
    rw [OpenBlock.writeHead, Records.replaceHead_commits]
    exact h.commits
  heads := by
    rw [OpenBlock.writeHead, Records.replaceHead_heads]
    exact h.heads.write nameId head
  commit_mem := h.commit_mem
  head_mem a ha := by
    rcases (OrderedMap.mem_remember _ _ _ _).1 ha with rfl | ha
    · exact hmem
    · exact h.head_mem a ha
  base_commit_mem := h.base_commit_mem
  base_head_mem := h.base_head_mem

theorem touchHead (h : Tracks base C H o) {nameId : NameId} (hmem : nameId ∈ H) :
    Tracks base C H ⟨o.records, o.records.rememberHead o.journal nameId⟩ where
  indexed := h.indexed
  commits := h.commits
  heads := h.heads.remember nameId
  commit_mem := h.commit_mem
  head_mem a ha := by
    rcases (OrderedMap.mem_remember _ _ _ _).1 ha with rfl | ha
    · exact hmem
    · exact h.head_mem a ha
  base_commit_mem := h.base_commit_mem
  base_head_mem := h.base_head_mem

theorem writeCommit (h : Tracks base C H o) {reference : CommitRef} (hmem : reference ∈ C)
    (commitment : Option Commitment) : Tracks base C H (o.writeCommit reference commitment) where
  indexed := h.indexed.replaceCommit reference commitment
  commits := by
    rw [OpenBlock.writeCommit, Records.replaceCommit_commits]
    exact h.commits.write reference commitment
  heads := by
    rw [OpenBlock.writeCommit, Records.replaceCommit_heads]
    exact h.heads
  commit_mem a ha := by
    rcases (OrderedMap.mem_remember _ _ _ _).1 ha with rfl | ha
    · exact hmem
    · exact h.commit_mem a ha
  head_mem := h.head_mem
  base_commit_mem := h.base_commit_mem
  base_head_mem := h.base_head_mem

/-- A current head may be touched: it was there at the start or was journaled since. -/
theorem mem_of_mem_heads (h : Tracks base C H o) {nameId : NameId}
    (hmem : nameId ∈ o.records.heads) : nameId ∈ H := by
  by_cases hjournal : nameId ∈ o.journal.heads
  · exact h.head_mem nameId hjournal
  · have hsame := h.heads.unchanged (ExtTreeMap.getElem?_eq_none hjournal)
    refine h.base_head_mem nameId ?_
    rw [ExtTreeMap.mem_iff_isSome_getElem?, ← hsame, ← ExtTreeMap.mem_iff_isSome_getElem?]
    exact hmem

/-- A pending COMMIT may be touched. -/
theorem mem_of_mem_commits (h : Tracks base C H o) {reference : CommitRef}
    (hmem : reference ∈ o.records.commits) : reference ∈ C := by
  by_cases hjournal : reference ∈ o.journal.commits
  · exact h.commit_mem reference hjournal
  · have hsame := h.commits.unchanged (ExtTreeMap.getElem?_eq_none hjournal)
    refine h.base_commit_mem reference ?_
    rw [ExtTreeMap.mem_iff_isSome_getElem?, ← hsame, ← ExtTreeMap.mem_iff_isSome_getElem?]
    exact hmem

/-! ### Loops of writes -/

/-- A loop that writes the head of each visited name. -/
theorem foldl_heads (step : OpenBlock → NameId → OpenBlock) (g : NameId → Head → Option Head)
    (hstep : ∀ o, Tracks base C H o → ∀ nameId ∈ H, Tracks base C H (step o nameId) ∧
      (step o nameId).records.ledger = ⟨o.records.commits,
        OrderedMap.put o.records.heads nameId (o.records.heads[nameId]?.bind (g nameId))⟩)
    {nameIds : List NameId} (hmem : ∀ nameId ∈ nameIds, nameId ∈ H) (h : Tracks base C H o) :
    Tracks base C H (nameIds.foldl step o) ∧ (nameIds.foldl step o).records.ledger =
      ⟨o.records.commits, OrderedMap.updateAll o.records.heads nameIds g⟩ := by
  induction nameIds generalizing o with
  | nil => exact ⟨h, rfl⟩
  | cons nameId nameIds ih =>
    obtain ⟨htracks, hledger⟩ := hstep o h nameId (hmem nameId List.mem_cons_self)
    obtain ⟨hlast, heq⟩ := ih (fun a ha ↦ hmem a (List.mem_cons_of_mem nameId ha)) htracks
    refine ⟨hlast, heq.trans ?_⟩
    have hcommits : (step o nameId).records.commits = o.records.commits :=
      congrArg Ledger.commits hledger
    have hheads := congrArg Ledger.heads hledger
    rw [hcommits]
    exact congrArg (Ledger.mk _) (congrArg (OrderedMap.updateAll · nameIds g) hheads)

/-- A loop that writes COMMITs. -/
theorem foldl_commits {entries : List (CommitRef × Option Commitment)}
    (hmem : ∀ e ∈ entries, e.1 ∈ C) (h : Tracks base C H o) :
    Tracks base C H (entries.foldl (fun o e ↦ o.writeCommit e.1 e.2) o) ∧
      (entries.foldl (fun o e ↦ o.writeCommit e.1 e.2) o).records.ledger =
        ⟨OrderedMap.putAll o.records.commits entries, o.records.heads⟩ := by
  induction entries generalizing o with
  | nil => exact ⟨h, rfl⟩
  | cons e entries ih =>
    have htracks := h.writeCommit (hmem e List.mem_cons_self) e.2
    obtain ⟨hlast, heq⟩ := ih (fun a ha ↦ hmem a (List.mem_cons_of_mem e ha)) htracks
    refine ⟨hlast, heq.trans ?_⟩
    rw [OpenBlock.writeCommit, Records.replaceCommit_heads, Records.replaceCommit_commits]
    rfl

end Tracks

/-! ### Block-start phases -/

/-- Where no height is a cooldown ago, nothing is released. -/
theorem Head.released_eq_false {parameters : Parameters} {height : U32}
    (hlast : U32.checkedSub height parameters.cooldownBlocks = none) (head : Head) :
    head.released parameters height = false := by
  rw [U32.checkedSub_eq_none_iff, Fin.lt_def] at hlast
  rcases hterm : head.terminalHeight with - | terminal
  · rw [released, hterm, Option.any_none]
  · rw [released, hterm, Option.any_some, decide_eq_false_iff_not]
    omega

/-- The index of terminal heads lists the released ones. -/
theorem Records.Indexed.mem_upTo_terminal {records : Records} (hindexed : records.Indexed)
    {parameters : Parameters} {height last : U32}
    (hlast : U32.checkedSub height parameters.cooldownBlocks = some last) (nameId : NameId) :
    nameId ∈ records.terminalHeadsByHeight.upTo last ↔
      ∃ head, records.heads[nameId]? = some head ∧ head.released parameters height = true := by
  obtain ⟨hle, hval⟩ := U32.checkedSub_eq_some_iff.1 hlast
  rw [Fin.le_def] at hle
  rw [hindexed.terminalHeadsByHeight.mem_upTo]
  simp only [U32.isLE_compare, Option.bind_eq_some_iff, Head.released, Option.any_eq_true,
    decide_eq_true_eq]
  constructor
  · rintro ⟨terminal, ⟨head, hhead, hterminal⟩, hbefore⟩
    rw [Fin.le_def] at hbefore
    exact ⟨head, hhead, terminal, hterminal, by omega⟩
  · rintro ⟨head, hhead, terminal, hterminal, hover⟩
    refine ⟨terminal, ⟨head, hhead, hterminal⟩, ?_⟩
    rw [Fin.le_def]
    omega

/-- **What compaction computes**: the heads that the index lists are found, reported and deleted. -/
theorem OpenBlock.compactClaimable_eq {o : OpenBlock} (hindexed : o.records.Indexed)
    {parameters : Parameters} {height last : U32}
    (hlast : U32.checkedSub height parameters.cooldownBlocks = some last) :
    ∃ entries : List (NameId × Head),
      entries.map Prod.fst = o.records.terminalHeadsByHeight.upTo last ∧
      (∀ e ∈ entries, o.records.heads[e.1]? = some e.2) ∧
      o.compactClaimable parameters height =
        some (entries.map fun e ↦ ⟨e.1, e.2.producer, height⟩,
          (o.records.terminalHeadsByHeight.upTo last).foldl
            (fun o nameId ↦ o.writeHead nameId none) o) := by
  obtain ⟨entries, hkeys, hentries⟩ := OrderedMap.exists_entries fun nameId hnameId ↦ by
    obtain ⟨head, hhead, -⟩ := (hindexed.mem_upTo_terminal hlast nameId).1 hnameId
    exact OrderedMap.mem_of_getElem?_eq_some hhead
  refine ⟨entries, hkeys, hentries, ?_⟩
  have hlookup := OrderedMap.mapM_lookup hentries Head.producer
  rw [compactClaimable, hlast]
  dsimp only
  rw [← hkeys, hlookup]
  simp only [Option.bind_eq_bind, Option.bind_some, Option.pure_def, List.foldl_map, List.map_map,
    Function.comp_def]

namespace Tracks

variable {base : Ledger} {C : Set CommitRef} {H : Set NameId} {o : OpenBlock}

theorem expireHead (h : Tracks base C H o) {nameId : NameId} (hmem : nameId ∈ H) :
    Tracks base C H (o.expireHead nameId) ∧ (o.expireHead nameId).records.ledger =
      ⟨o.records.commits, OrderedMap.put o.records.heads nameId (o.records.heads[nameId]?.bind
        fun head ↦ some { head with terminalHeight := some head.expiryHeight })⟩ := by
  rw [OpenBlock.expireHead]
  rcases hhead : o.records.heads[nameId]? with - | head
  · refine ⟨h.touchHead hmem, ?_⟩
    have hsame := OrderedMap.put_self o.records.heads nameId
    rw [hhead] at hsame
    rw [Option.bind_none, hsame]
    rfl
  · exact ⟨h.writeHead hmem _, OpenBlock.writeHead_ledger o nameId _⟩

/-- **Expiry.** The index of active heads lists exactly the heads the scan marks. -/
theorem markExpired (h : Tracks base C H o) (height : U32) :
    Tracks base C H (o.markExpired height) ∧
      (o.markExpired height).records.ledger = o.records.ledger.markExpired height := by
  have hlist : ∀ nameId, nameId ∈ o.records.activeHeadsByExpiry.upTo height ↔
      ∃ head, o.records.heads[nameId]? = some head ∧ head.terminalHeight = none ∧
        head.expiryHeight ≤ height := by
    intro nameId
    rw [h.indexed.activeHeadsByExpiry.mem_upTo]
    simp only [U32.isLE_compare, Option.bind_eq_some_iff, Head.activeExpiry]
    grind
  have hmem : ∀ nameId ∈ o.records.activeHeadsByExpiry.upTo height, nameId ∈ H := by
    intro nameId hnameId
    obtain ⟨head, hhead, -⟩ := (hlist nameId).1 hnameId
    exact h.mem_of_mem_heads (OrderedMap.mem_of_getElem?_eq_some hhead)
  obtain ⟨htracks, hledger⟩ := foldl_heads OpenBlock.expireHead
    (fun _ head ↦ some { head with terminalHeight := some head.expiryHeight })
    (fun o ho nameId ↦ ho.expireHead) hmem h
  refine ⟨htracks, hledger.trans ?_⟩
  rw [Ledger.markExpired]
  refine congrArg (Ledger.mk _) (ExtTreeMap.ext_getElem? fun nameId ↦ ?_)
  rw [OrderedMap.getElem?_updateAll (h.indexed.activeHeadsByExpiry.nodup_upTo height),
    ExtTreeMap.getElem?_map]
  have hiff := hlist nameId
  rcases hhead : o.records.heads[nameId]? with - | head
  · simp [Records.ledger, hhead]
  · simp only [hhead, Option.some.injEq, exists_eq_left'] at hiff
    simp only [Records.ledger, hhead, hiff, Head.expire, Option.bind_some, Option.map_some]
    split <;> rfl

/-- All heads released at a height became terminal together. -/
def OneTerminal (heads : OrderedMap NameId Head) (parameters : Parameters) (height : U32) : Prop :=
  ∀ (a b : NameId) (head head' : Head), heads[a]? = some head → heads[b]? = some head' →
    head.released parameters height → head'.released parameters height →
    head.terminalHeight = head'.terminalHeight

/-- **Compaction.** The index of terminal heads lists exactly the heads the scan deletes, in name
order when they became terminal together. -/
theorem compactClaimable (h : Tracks base C H o) (parameters : Parameters) (height : U32) :
    ∃ entries o', o.compactClaimable parameters height =
        some (entries.map fun e ↦ ⟨e.1, e.2.producer, height⟩, o') ∧
      Tracks base C H o' ∧ o'.records.ledger = o.records.ledger.compact parameters height ∧
      (OneTerminal o.records.heads parameters height → entries =
        o.records.heads.toList.filter fun e ↦ e.2.released parameters height) := by
  rcases hlast : U32.checkedSub height parameters.cooldownBlocks with - | last
  · -- no height is a cooldown ago
    have hnone := Head.released_eq_false hlast
    refine ⟨[], o, by rw [OpenBlock.compactClaimable, hlast]; rfl, h, ?_,
      fun _ ↦ by simp [hnone]⟩
    rw [Ledger.compact]
    refine congrArg (Ledger.mk _) (ExtTreeMap.ext_getElem? fun nameId ↦ ?_)
    rw [ExtTreeMap.getElem?_filter']
    rcases hhead : o.records.heads[nameId]? with - | head <;>
      simp [hnone, Records.ledger, hhead, Option.filter_some]
  · have hlist := h.indexed.mem_upTo_terminal hlast
    obtain ⟨entries, hkeys, hentries, hcompact⟩ := OpenBlock.compactClaimable_eq h.indexed hlast
    have hnodup := h.indexed.terminalHeadsByHeight.nodup_upTo last
    have hmem : ∀ nameId ∈ o.records.terminalHeadsByHeight.upTo last, nameId ∈ H := by
      intro nameId hnameId
      obtain ⟨head, hhead, -⟩ := (hlist nameId).1 hnameId
      exact h.mem_of_mem_heads (OrderedMap.mem_of_getElem?_eq_some hhead)
    obtain ⟨htracks, hledger⟩ := foldl_heads (fun o nameId ↦ o.writeHead nameId none)
      (fun _ _ ↦ none) (fun o ho nameId hnameId ↦ ⟨ho.writeHead hnameId none, by
        rw [OpenBlock.writeHead_ledger, Option.bind_fun_none]⟩) hmem h
    refine ⟨entries, _, hcompact, htracks, hledger.trans ?_, fun hone ↦ ?_⟩
    · rw [Ledger.compact]
      refine congrArg (Ledger.mk _) (ExtTreeMap.ext_getElem? fun nameId ↦ ?_)
      rw [OrderedMap.getElem?_updateAll hnodup, ExtTreeMap.getElem?_filter']
      have hiff := hlist nameId
      rcases hhead : o.records.heads[nameId]? with - | head
      · simp [Records.ledger, hhead]
      · simp only [hhead, Option.some.injEq, exists_eq_left'] at hiff
        simp only [Records.ledger, hhead, hiff, Option.bind_some, Option.filter_some]
        grind
    · have hascending : OrderedMap.Ascending Prod.fst entries := by
        have hpairwise : OrderedMap.Ascending id (entries.map Prod.fst) := ?_
        · exact List.pairwise_map.1 hpairwise
        rw [hkeys]
        refine h.indexed.terminalHeadsByHeight.ascending_upTo fun a b t t' ha hb hat hbt ↦ ?_
        simp only [Option.bind_eq_some_iff] at ha hb
        obtain ⟨head, hhead, hterm⟩ := ha
        obtain ⟨head', hhead', hterm'⟩ := hb
        obtain ⟨hle, hval⟩ := U32.checkedSub_eq_some_iff.1 hlast
        rw [U32.isLE_compare, Fin.le_def] at hat hbt
        rw [Fin.le_def] at hle
        have heq := hone a b head head' hhead hhead' ?_ ?_
        · rw [hterm, hterm'] at heq
          exact Option.some.inj heq
        all_goals
          simp only [Head.released, hterm, hterm', Option.any_some, decide_eq_true_eq]
          omega
      refine hascending.eq_of_mem_iff ((OrderedMap.ascending_toList _).filter _) fun e ↦ ?_
      rw [List.mem_filter, ← OrderedMap.getElem?_eq_some_iff_mem_toList]
      have hiff := hlist e.1
      rw [← hkeys] at hiff
      constructor
      · intro he
        have hhead := hentries e he
        obtain ⟨head, hhead', hreleased⟩ := hiff.1 (List.mem_map_of_mem he)
        rw [hhead, Option.some.injEq] at hhead'
        exact ⟨hhead, hhead' ▸ hreleased⟩
      · rintro ⟨hhead, hreleased⟩
        obtain ⟨e', he', hkey⟩ := List.mem_map.1 (hiff.2 ⟨e.2, hhead, hreleased⟩)
        have hhead' := hentries e' he'
        rw [hkey, hhead, Option.some.injEq] at hhead'
        have heq : e' = e := Prod.ext hkey hhead'.symm
        exact heq ▸ he'

/-- **Pruning.** The index of COMMITs lists exactly those the scan deletes. -/
theorem pruneCommits (h : Tracks base C H o) {parameters : Parameters} (hvalid : parameters.Valid)
    (height : U32) : Tracks base C H (o.pruneCommits parameters height) ∧
      (o.pruneCommits parameters height).records.ledger =
        o.records.ledger.prune parameters height := by
  have hpos := hvalid.ttl_pos
  rw [OpenBlock.pruneCommits]
  rcases hlast : U32.checkedSub height parameters.commitTtlBlocks with - | last
  · -- no height is a lifetime ago, so every COMMIT stays
    rw [U32.checkedSub_eq_none_iff] at hlast
    refine ⟨h, ?_⟩
    rw [Ledger.prune]
    refine congrArg (Ledger.mk · _) (ExtTreeMap.ext_getElem? fun reference ↦ ?_)
    have hkeep : height.val - reference.height.val < parameters.commitTtlBlocks.val := by grind
    rw [ExtTreeMap.getElem?_filter']
    rcases hc : o.records.commits[reference]? with - | commitment <;>
      simp [Records.ledger, hc, hkeep, Option.filter_some]
  · rw [U32.checkedSub_eq_some_iff] at hlast
    have hlist : ∀ reference, reference ∈ o.records.commitsByHeight.upTo last ↔
        reference ∈ o.records.commits ∧
          ¬ height.val - reference.height.val < parameters.commitTtlBlocks.val := by
      intro reference
      rw [h.indexed.commitsByHeight.mem_upTo, ExtTreeMap.mem_iff_isSome_getElem?,
        Option.isSome_iff_exists]
      simp only [U32.isLE_compare, Option.bind_eq_some_iff]
      grind
    have hmem : ∀ e ∈ (o.records.commitsByHeight.upTo last).map
        fun reference ↦ (reference, (none : Option Commitment)), e.1 ∈ C := by
      simp only [List.forall_mem_map]
      exact fun reference hreference ↦ h.mem_of_mem_commits ((hlist reference).1 hreference).1
    obtain ⟨htracks, hledger⟩ := foldl_commits hmem h
    rw [List.foldl_map] at htracks hledger
    refine ⟨htracks, hledger.trans ?_⟩
    rw [Ledger.prune]
    refine congrArg (Ledger.mk · _) (ExtTreeMap.ext_getElem? fun reference ↦ ?_)
    rw [ExtTreeMap.getElem?_filter']
    have hiff := hlist reference
    by_cases hpruned : reference ∈ o.records.commitsByHeight.upTo last
    · have hdistinct : ((o.records.commitsByHeight.upTo last).map fun reference ↦
          (reference, (none : Option Commitment))).Pairwise fun a b ↦ a.1 ≠ b.1 :=
        List.pairwise_map.2 (h.indexed.commitsByHeight.nodup_upTo last)
      rw [OrderedMap.getElem?_putAll_of_mem hdistinct (List.mem_map.2 ⟨reference, hpruned, rfl⟩)]
      rcases hc : o.records.commits[reference]? with - | commitment <;>
        simp [Records.ledger, hc, (hiff.1 hpruned).2, Option.filter_some]
    · rw [OrderedMap.getElem?_putAll_of_not_mem]
      · rcases hc : o.records.commits[reference]? with - | commitment
        · simp [Records.ledger, hc]
        · have hkeep : height.val - reference.height.val < parameters.commitTtlBlocks.val := by
            by_contra hnot
            exact hpruned (hiff.2 ⟨OrderedMap.mem_of_getElem?_eq_some hc, hnot⟩)
          simp [Records.ledger, hc, hkeep, Option.filter_some]
      · simp only [List.forall_mem_map]
        rintro a ha rfl
        exact hpruned ha

/-- **Evidence.** -/
theorem addEvidence (h : Tracks base C H o) {supplied : OrderedMap CommitRef Commitment}
    (hmem : ∀ reference ∈ supplied, reference ∈ C) : Tracks base C H (o.addEvidence supplied) ∧
      (o.addEvidence supplied).records.ledger = o.records.ledger.addEvidence supplied := by
  have hmem' : ∀ e ∈ supplied.toList.map fun e ↦ (e.1, some e.2), e.1 ∈ C := by
    simp only [List.forall_mem_map]
    exact fun e he ↦ hmem e.1 (OrderedMap.mem_of_getElem?_eq_some
      (OrderedMap.getElem?_eq_some_iff_mem_toList.2 he))
  obtain ⟨htracks, hledger⟩ := foldl_commits hmem' h
  rw [List.foldl_map] at htracks hledger
  refine ⟨htracks, hledger.trans ?_⟩
  rw [Ledger.addEvidence]
  refine congrArg (Ledger.mk · _) (ExtTreeMap.ext_getElem? fun reference ↦ ?_)
  rw [ExtTreeMap.getElem?_union]
  rcases hc : supplied[reference]? with - | commitment
  · rw [OrderedMap.getElem?_putAll_of_not_mem]
    · rfl
    · simp only [List.forall_mem_map]
      rintro e he rfl
      rw [OrderedMap.getElem?_eq_some_iff_mem_toList.2 he] at hc
      cases hc
  · have hdistinct : (supplied.toList.map fun e ↦ (e.1, some e.2)).Pairwise fun a b ↦ a.1 ≠ b.1 :=
      List.pairwise_map.2 (OrderedMap.toList_pairwise_ne supplied)
    rw [OrderedMap.getElem?_putAll_of_mem hdistinct (List.mem_map.2
      ⟨(reference, commitment), OrderedMap.getElem?_eq_some_iff_mem_toList.1 hc, rfl⟩)]
    rfl

end Tracks

/-! ### Transactions -/

/-- What the operation of a transaction may write lies in `C` and `H`. -/
structure Transaction.Within (transaction : Transaction) (height : U32) (C : Set CommitRef)
    (H : Set NameId) : Prop where
  commit : ∀ commitment, transaction.operation = some (.commit commitment) →
    ⟨height, transaction.txIndex, transaction.txid⟩ ∈ C
  reveal : ∀ op nameId, transaction.operation = some (.reveal op) → op.name.id = .ok nameId →
    nameId ∈ H

/-- The heads a transaction spends, with their producers, in name order. -/
def Ledger.spentEntries (ledger : Ledger) (transaction : Transaction) :
    List (NameId × StateRef) :=
  (ledger.heads.toList.filter fun e ↦ transaction.spends e.2).map fun e ↦ (e.1, e.2.producer)

theorem Ledger.mem_spentEntries {ledger : Ledger} {transaction : Transaction}
    {e : NameId × StateRef} : e ∈ ledger.spentEntries transaction ↔
      ∃ head, ledger.heads[e.1]? = some head ∧ transaction.spends head = true ∧
        head.producer = e.2 := by
  simp only [spentEntries, List.mem_map, List.mem_filter, Prod.exists,
    ← OrderedMap.getElem?_eq_some_iff_mem_toList]
  constructor
  · rintro ⟨nameId, head, ⟨hhead, hspends⟩, rfl⟩
    exact ⟨head, hhead, hspends, rfl⟩
  · rintro ⟨head, hhead, hspends, hproducer⟩
    exact ⟨e.1, head, ⟨hhead, hspends⟩, Prod.ext rfl hproducer⟩

theorem Ledger.ascending_spentEntries (ledger : Ledger) (transaction : Transaction) :
    OrderedMap.Ascending Prod.fst (ledger.spentEntries transaction) :=
  List.pairwise_map.2 ((OrderedMap.ascending_toList ledger.heads).filter _)

/-- Of the heads spent before an operation, those that are spent after it. -/
theorem Ledger.filter_spentEntries (before : Ledger) (heads : OrderedMap NameId Head)
    (transaction : Transaction) :
    ((before.spentEntries transaction).filter fun e ↦
      (heads[e.1]?).any (before.spent transaction e.1)) =
      (heads.toList.filter fun e ↦ before.spent transaction e.1 e.2).map
        fun e ↦ (e.1, e.2.producer) := by
  have hscan : OrderedMap.Ascending Prod.fst ((heads.toList.filter fun e ↦
      before.spent transaction e.1 e.2).map fun e ↦ (e.1, e.2.producer)) :=
    List.pairwise_map.2 ((OrderedMap.ascending_toList heads).filter _)
  refine ((before.ascending_spentEntries transaction).filter _).eq_of_mem_iff hscan fun e ↦ ?_
  simp only [List.mem_filter, List.mem_map, Prod.exists, mem_spentEntries, Option.any_eq_true,
    ← OrderedMap.getElem?_eq_some_iff_mem_toList, spent, Bool.and_eq_true, decide_eq_true_eq]
  constructor
  · rintro ⟨⟨previous, hprevious, -, hproducer⟩, head, hhead, hterm, previous', hprevious', hsame⟩
    rw [hprevious, Option.some.injEq] at hprevious'
    subst hprevious'
    exact ⟨e.1, head, ⟨hhead, hterm, previous, hprevious, hsame⟩,
      Prod.ext rfl (hsame.2.symm.trans hproducer)⟩
  · rintro ⟨nameId, head, ⟨hhead, hterm, previous, hprevious, hsame⟩, rfl⟩
    exact ⟨⟨previous, hprevious, hsame⟩, head, hhead, hterm, previous, hprevious, hsame⟩

/-- A head that no action spent before the operation is not terminated after it. -/
theorem Ledger.updateAll_spentEntries (before : Ledger) (heads : OrderedMap NameId Head)
    (height : U32) (transaction : Transaction) :
    OrderedMap.updateAll heads ((before.spentEntries transaction).map Prod.fst)
      (fun nameId head ↦ some (before.afterSpend height transaction nameId head)) =
      heads.map (before.afterSpend height transaction) := by
  apply ExtTreeMap.ext_getElem?
  intro nameId
  rw [OrderedMap.getElem?_updateAll (before.ascending_spentEntries transaction).keys_nodup,
    ExtTreeMap.getElem?_map]
  rcases hhead : heads[nameId]? with - | head
  · simp
  split
  · rfl
  · rename_i hmem
    have hnot : before.spent transaction nameId head = false := by
      rw [Bool.eq_false_iff]
      intro hspent
      simp only [spent, Bool.and_eq_true, Option.any_eq_true, decide_eq_true_eq] at hspent
      obtain ⟨-, previous, hprevious, hspends, hproducer⟩ := hspent
      refine hmem (List.mem_map.2 ⟨(nameId, head.producer), ?_, rfl⟩)
      exact mem_spentEntries.2 ⟨previous, hprevious, hspends, hproducer⟩
    simp [afterSpend, hnot]

/-- The nullifier index finds exactly the heads that the scan finds spent. -/
theorem Records.Indexed.spent {o : OpenBlock} (h : o.records.Indexed) (transaction : Transaction) :
    o.spent transaction = some (o.records.ledger.spentEntries transaction) := by
  have hkeys : (ExtTreeSet.ofList (transaction.actions.flatMap fun action ↦
      (o.records.headsByFutureNf.bucket action.nullifier.bytes).toList) compare).toList =
      (o.records.heads.toList.filter fun e ↦ transaction.spends e.2).map Prod.fst := by
    have hset : OrderedMap.Ascending id (ExtTreeSet.ofList (transaction.actions.flatMap fun action ↦
        (o.records.headsByFutureNf.bucket action.nullifier.bytes).toList) compare).toList :=
      (ExtTreeSet.ofList _ compare).ordered_toList
    have hscan : OrderedMap.Ascending id
        ((o.records.heads.toList.filter fun e ↦ transaction.spends e.2).map Prod.fst) :=
      List.pairwise_map.2 ((OrderedMap.ascending_toList o.records.heads).filter _)
    refine hset.eq_of_mem_iff hscan fun nameId ↦ ?_
    simp only [ExtTreeSet.mem_toList, ExtTreeSet.mem_ofList, List.contains_iff_mem,
      List.mem_flatMap, h.headsByFutureNf.mem_iff, Option.bind_eq_some_iff, Option.some.injEq,
      List.mem_map, List.mem_filter, Prod.exists, exists_and_right, exists_eq_right,
      ← OrderedMap.getElem?_eq_some_iff_mem_toList, Transaction.spends, List.any_eq_true,
      decide_eq_true_eq]
    constructor
    · rintro ⟨action, haction, head, hhead, hbytes⟩
      exact ⟨head, hhead, action, haction, FieldElement.ext hbytes.symm⟩
    · rintro ⟨head, hhead, action, haction, hspends⟩
      exact ⟨action, haction, head, hhead, by rw [hspends]⟩
  rw [OpenBlock.spent, hkeys, OrderedMap.mapM_lookup]
  · rfl
  · intro e he
    exact OrderedMap.getElem?_eq_some_iff_mem_toList.2 (List.mem_filter.1 he).1

namespace Tracks

variable {base : Ledger} {C : Set CommitRef} {H : Set NameId} {o : OpenBlock}

/-- **Operations.** -/
theorem applyOperation (h : Tracks base C H o) (rules : Rules) {height : U32}
    {transaction : Transaction} (hwithin : transaction.Within height C H) :
    Tracks base C H (o.applyOperation rules height transaction).2 ∧
      (o.applyOperation rules height transaction).2.records.ledger =
        (o.records.ledger.applyOperation rules height transaction).2 ∧
      (o.applyOperation rules height transaction).1 =
        (o.records.ledger.applyOperation rules height transaction).1 := by
  rw [OpenBlock.applyOperation, Ledger.applyOperation]
  rcases hop : transaction.operation with - | (commitment | op | op)
  · exact ⟨h, rfl, rfl⟩
  · exact ⟨h.writeCommit (hwithin.commit commitment hop) _, OpenBlock.writeCommit_ledger o _ _, rfl⟩
  · dsimp only
    rcases hresult : o.records.ledger.revealed rules height transaction op with
      clause | ⟨nameId, head⟩
    · exact ⟨h, rfl, rfl⟩
    · have hid := (Ledger.revealed_eq_ok hresult).1
      exact ⟨h.writeHead (hwithin.reveal op nameId hop hid) _,
        OpenBlock.writeHead_ledger o _ _, rfl⟩
  · dsimp only
    rcases hresult : o.records.ledger.refreshed rules height transaction op with
      clause | ⟨nameId, head⟩
    · exact ⟨h, rfl, rfl⟩
    · obtain ⟨-, predecessor, hpredecessor, -⟩ := Ledger.refreshed_eq_ok hresult
      have hmem : nameId ∈ H :=
        h.mem_of_mem_heads (OrderedMap.mem_of_getElem?_eq_some hpredecessor)
      exact ⟨h.writeHead hmem _, OpenBlock.writeHead_ledger o _ _, rfl⟩

/-- One step of the spend loop, on a head that was spent before the operation. -/
theorem spend (h : Tracks base C H o) (before : Ledger) {transaction : Transaction} (height : U32)
    {e : NameId × StateRef} (he : e ∈ before.spentEntries transaction) (hmem : e.1 ∈ H)
    (terminated : List Termination) :
    Tracks base C H (OpenBlock.spend height (terminated, o) e).2 ∧
      (OpenBlock.spend height (terminated, o) e).2.records.ledger =
        ⟨o.records.commits, OrderedMap.put o.records.heads e.1 (o.records.heads[e.1]?.bind
          fun head ↦ some (before.afterSpend height transaction e.1 head))⟩ ∧
      (OpenBlock.spend height (terminated, o) e).1 = terminated ++
        if (o.records.heads[e.1]?).any (before.spent transaction e.1) then
          [⟨e.1, e.2, height⟩] else [] := by
  obtain ⟨previous, hprevious, hspends, hproducer⟩ := Ledger.mem_spentEntries.1 he
  have hself := OrderedMap.put_self o.records.heads e.1
  rw [OpenBlock.spend]
  rcases hhead : o.records.heads[e.1]? with - | head
  · rw [hhead] at hself
    refine ⟨h, ?_, by simp⟩
    rw [Option.bind_none, hself]
    rfl
  rw [hhead] at hself
  have hspent : before.spent transaction e.1 head =
      (head.terminalHeight.isNone && decide (e.2 = head.producer)) := by
    rw [Ledger.spent, hprevious, Option.any_some, hspends, Bool.true_and, hproducer]
  dsimp only
  split
  · -- the operation replaced the head
    rename_i hne
    have hnot : before.spent transaction e.1 head = false := by
      rw [hspent, decide_eq_false (Ne.symm hne), Bool.and_false]
    refine ⟨h, ?_, by simp [hnot]⟩
    rw [Option.bind_some, Ledger.afterSpend, hnot, if_neg Bool.false_ne_true, hself]
    rfl
  · rename_i heq
    rw [not_not] at heq
    rcases hterm : head.terminalHeight with - | terminal
    · have hyes : before.spent transaction e.1 head = true := by
        rw [hspent, hterm, heq]
        simp
      refine ⟨h.writeHead hmem _, ?_, by simp [hyes]⟩
      rw [OpenBlock.writeHead_ledger, Option.bind_some, Ledger.afterSpend, hyes, if_pos rfl]
    · have hnot : before.spent transaction e.1 head = false := by
        rw [hspent, hterm]
        rfl
      refine ⟨h.touchHead hmem, ?_, by simp [hnot]⟩
      rw [Option.bind_some, Ledger.afterSpend, hnot, if_neg Bool.false_ne_true, hself]
      rfl

/-- The spend loop visits each spent head once. -/
theorem foldl_spend (h : Tracks base C H o) (before : Ledger) {transaction : Transaction}
    (height : U32) {entries : List (NameId × StateRef)}
    (hentries : ∀ e ∈ entries, e ∈ before.spentEntries transaction)
    (hmem : ∀ e ∈ entries, e.1 ∈ H) (hnodup : (entries.map Prod.fst).Nodup)
    (terminated : List Termination) :
    Tracks base C H (entries.foldl (OpenBlock.spend height) (terminated, o)).2 ∧
      (entries.foldl (OpenBlock.spend height) (terminated, o)).2.records.ledger =
        ⟨o.records.commits, OrderedMap.updateAll o.records.heads (entries.map Prod.fst)
          fun nameId head ↦ some (before.afterSpend height transaction nameId head)⟩ ∧
      (entries.foldl (OpenBlock.spend height) (terminated, o)).1 = terminated ++
        (entries.filter fun e ↦ (o.records.heads[e.1]?).any (before.spent transaction e.1)).map
          fun e ↦ ⟨e.1, e.2, height⟩ := by
  induction entries generalizing o terminated with
  | nil => exact ⟨h, rfl, by simp⟩
  | cons e entries ih =>
    rw [List.map_cons, List.nodup_cons] at hnodup
    obtain ⟨htracks, hledger, hterminated⟩ := h.spend before height (hentries e List.mem_cons_self)
      (hmem e List.mem_cons_self) terminated
    obtain ⟨hlast, heq, hlist⟩ := ih htracks (fun a ha ↦ hentries a (List.mem_cons_of_mem e ha))
      (fun a ha ↦ hmem a (List.mem_cons_of_mem e ha)) hnodup.2
      (OpenBlock.spend height (terminated, o) e).1
    have hcommits := congrArg Ledger.commits hledger
    have hheads := congrArg Ledger.heads hledger
    simp only [Records.ledger] at hcommits hheads
    refine ⟨hlast, heq.trans ?_, hlist.trans ?_⟩
    · rw [hcommits, hheads]
      rfl
    · -- the heads still to be visited are as they were
      have hsame : (entries.filter fun a ↦
          ((OpenBlock.spend height (terminated, o) e).2.records.heads[a.1]?).any
            (before.spent transaction a.1)) =
          entries.filter fun a ↦ (o.records.heads[a.1]?).any (before.spent transaction a.1) := by
        refine List.filter_congr fun a ha ↦ ?_
        have hne : e.1 ≠ a.1 := fun hkey ↦ hnodup.1 (hkey ▸ List.mem_map_of_mem ha)
        rw [hheads, OrderedMap.getElem?_put, if_neg hne]
      rw [hsame, hterminated, List.filter_cons]
      split <;> simp

/-- **Transactions.** The operation and the spend loop do what the scan does. -/
theorem applyTransactionDetailed (h : Tracks base C H o) (rules : Rules) {height : U32}
    {transaction : Transaction} (hwithin : transaction.Within height C H)
    (terminated : List Termination) :
    ∃ o', o.applyTransactionDetailed rules height transaction terminated =
        some ((o.records.ledger.applyTransaction rules height transaction).1,
          terminated ++ (o.records.ledger.applyTransaction rules height transaction).2.1, o') ∧
      Tracks base C H o' ∧
      o'.records.ledger = (o.records.ledger.applyTransaction rules height transaction).2.2 := by
  set before := o.records.ledger with hbefore
  obtain ⟨hop, hafter, hdecision⟩ := h.applyOperation rules hwithin
  rw [← hbefore] at hafter hdecision
  set after := (before.applyOperation rules height transaction).2
  have hascending := before.ascending_spentEntries transaction
  have hmem : ∀ e ∈ before.spentEntries transaction, e.1 ∈ H := by
    intro e he
    obtain ⟨head, hhead, -⟩ := Ledger.mem_spentEntries.1 he
    exact h.mem_of_mem_heads (OrderedMap.mem_of_getElem?_eq_some hhead)
  obtain ⟨hlast, hledger, hlist⟩ := hop.foldl_spend before height (fun e he ↦ he) hmem
    hascending.keys_nodup terminated
  have hheads := congrArg Ledger.heads hafter
  have hcommits := congrArg Ledger.commits hafter
  simp only [Records.ledger] at hheads hcommits
  refine ⟨_, ?_, hlast, hledger.trans ?_⟩
  · have hfold : o.applyTransactionDetailed rules height transaction terminated = some
        ((o.applyOperation rules height transaction).1,
          (before.spentEntries transaction).foldl (OpenBlock.spend height)
            (terminated, (o.applyOperation rules height transaction).2)) := by
      rw [OpenBlock.applyTransactionDetailed, h.indexed.spent]
      rfl
    rw [hfold, hdecision]
    refine congrArg some (Prod.ext rfl (Prod.ext ?_ rfl))
    rw [hlist, hheads, before.filter_spentEntries, List.map_map]
    rfl
  · rw [hcommits, hheads]
    exact congrArg (Ledger.mk _) (before.updateAll_spentEntries _ height transaction)

/-- The transaction loop, from any accumulated decisions and terminations. -/
theorem foldlM_applyTransactionDetailed (h : Tracks base C H o) (rules : Rules) {height : U32}
    {transactions : List Transaction}
    (hwithin : ∀ transaction ∈ transactions, transaction.Within height C H)
    (decisions : List OperationDecision) (terminated : List Termination) :
    ∃ o', (transactions.foldlM (OpenBlock.applyNext rules height) (decisions, terminated, o)) =
        some (decisions ++ (o.records.ledger.applyTransactions rules height transactions).1,
          terminated ++ (o.records.ledger.applyTransactions rules height transactions).2.1, o') ∧
      Tracks base C H o' ∧
      o'.records.ledger = (o.records.ledger.applyTransactions rules height transactions).2.2 := by
  induction transactions generalizing o decisions terminated with
  | nil => exact ⟨o, by simp [Ledger.applyTransactions], h, rfl⟩
  | cons transaction transactions ih =>
    obtain ⟨o₁, hfirst, hnext, hledger⟩ := h.applyTransactionDetailed rules
      (hwithin transaction List.mem_cons_self) terminated
    obtain ⟨o', hrest, hlast, hfinal⟩ := ih hnext
      (fun a ha ↦ hwithin a (List.mem_cons_of_mem transaction ha))
      (decisions ++ [(o.records.ledger.applyTransaction rules height transaction).1])
      (terminated ++ (o.records.ledger.applyTransaction rules height transaction).2.1)
    rw [hledger] at hrest hfinal
    refine ⟨o', ?_, hlast, hfinal⟩
    rw [List.foldlM_cons, OpenBlock.applyNext, hfirst]
    simp only [Option.bind_eq_bind, Option.bind_some, Option.pure_def, hrest,
      Ledger.applyTransactions, List.append_assoc, List.singleton_append]

/-- **All transactions of a block.** -/
theorem applyTransactions (h : Tracks base C H o) (rules : Rules) {height : U32}
    {transactions : List Transaction}
    (hwithin : ∀ transaction ∈ transactions, transaction.Within height C H) :
    ∃ o', o.applyTransactions rules height transactions =
        some ((o.records.ledger.applyTransactions rules height transactions).1,
          (o.records.ledger.applyTransactions rules height transactions).2.1, o') ∧
      Tracks base C H o' ∧
      o'.records.ledger = (o.records.ledger.applyTransactions rules height transactions).2.2 := by
  obtain ⟨o', hfold, hlast⟩ := h.foldlM_applyTransactionDetailed rules hwithin [] []
  exact ⟨o', hfold, hlast⟩

end Tracks

/-! ### Blocks -/

namespace Reducer

variable {reducer : Reducer} {C : Set CommitRef} {H : Set NameId}

theorem tracks_openBlock (hindexed : reducer.toRecords.Indexed)
    (hcommits : ∀ reference ∈ reducer.commits, reference ∈ C)
    (hheads : ∀ nameId ∈ reducer.heads, nameId ∈ H) :
    Tracks reducer.ledger C H reducer.openBlock where
  indexed := hindexed
  commits := OrderedMap.Journals.refl _
  heads := OrderedMap.Journals.refl _
  commit_mem reference h := by simp [openBlock] at h
  head_mem nameId h := by simp [openBlock] at h
  base_commit_mem := hcommits
  base_head_mem := hheads

/-- Everything before the transactions. -/
theorem startBlock_spec (hindexed : reducer.toRecords.Indexed)
    (hcommits : ∀ reference ∈ reducer.commits, reference ∈ C)
    (hheads : ∀ nameId ∈ reducer.heads, nameId ∈ H) (height : U32)
    {supplied : OrderedMap CommitRef Commitment}
    (hsupplied : ∀ reference ∈ supplied, reference ∈ C) :
    ∃ compacted o, reducer.startBlock height supplied = some (compacted, o) ∧
      Tracks reducer.ledger C H o ∧
      o.records.ledger = reducer.ledger.startBlock reducer.rules.parameters height supplied ∧
      (Tracks.OneTerminal (reducer.ledger.markExpired height).heads
        reducer.rules.parameters height →
        compacted = (reducer.ledger.markExpired height).compactions reducer.rules.parameters
          height) := by
  obtain ⟨h₁, hledger₁⟩ := (tracks_openBlock hindexed hcommits hheads).markExpired height
  obtain ⟨entries, o₂, hcompact, h₂, hledger₂, horder⟩ :=
    h₁.compactClaimable reducer.rules.parameters height
  obtain ⟨h₃, hledger₃⟩ := h₂.pruneCommits reducer.rules.valid height
  obtain ⟨h₄, hledger₄⟩ := h₃.addEvidence hsupplied
  refine ⟨entries.map fun e ↦ ⟨e.1, e.2.producer, height⟩, _, ?_, h₄, ?_, fun hone ↦ ?_⟩
  · rw [startBlock, hcompact]
    rfl
  · rw [hledger₄, hledger₃, hledger₂, hledger₁]
    rfl
  · have hheads₁ : (reducer.openBlock.markExpired height).records.heads =
        (reducer.ledger.markExpired height).heads := congrArg Ledger.heads hledger₁
    rw [hheads₁] at horder
    rw [horder hone, Ledger.compactions]

/-- **An admitted block.** It does not panic; the records after it are those of the scan; they are
indexed, and the block's journal leads back to the records before it. -/
theorem applyBlockDetailed_of_admission (hindexed : reducer.toRecords.Indexed) {block : Block}
    {evidence : List ReferencedCommit} {supplied : OrderedMap CommitRef Commitment}
    (hadmission : admission reducer.rules.parameters reducer.nextHeight reducer.previousHash
      reducer.commits block evidence = .ok supplied)
    (hcommits : ∀ reference ∈ reducer.commits, reference ∈ C)
    (hheads : ∀ nameId ∈ reducer.heads, nameId ∈ H)
    (hsupplied : ∀ reference ∈ supplied, reference ∈ C)
    (hwithin : ∀ transaction ∈ block.transactions, transaction.Within block.height C H) :
    ∃ outcome o s, reducer.applyBlockDetailed block evidence =
        some (.ok outcome, reducer.closeBlock block o) ∧
      Tracks reducer.ledger C H o ∧
      reducer.scan.applyBlock block evidence = .ok (s, (reducer.closeBlock block o).scan) ∧
      outcome.accepted = s.accepted ∧ outcome.decisions = s.decisions ∧
      outcome.terminated = s.terminated ∧
      (Tracks.OneTerminal (reducer.ledger.markExpired block.height).heads reducer.rules.parameters
        block.height → outcome.compacted = s.compacted) ∧
      outcome.stateDelta = (reducer.closeBlock block o).deltaFromUndo reducer.tip
        (reducer.closeBlock block o).tip o.journal := by
  obtain ⟨compacted, o₁, hstart, h₁, hledger₁, horder⟩ :=
    startBlock_spec hindexed hcommits hheads block.height hsupplied
  obtain ⟨o, hrun, htracks, hledger⟩ := h₁.applyTransactions reducer.rules hwithin
  rw [hledger₁] at hrun hledger
  have hscan : (reducer.closeBlock block o).scan = reducer.scan.advance block
      (((reducer.ledger.startBlock reducer.rules.parameters block.height supplied).applyTransactions
        reducer.rules block.height block.transactions).2.2) :=
    congrArg (reducer.scan.advance block) hledger
  set result := (reducer.ledger.startBlock reducer.rules.parameters block.height
    supplied).applyTransactions reducer.rules block.height block.transactions
  have happly : reducer.applyBlockDetailed block evidence = some (.ok
      { accepted := result.1.filterMap OperationDecision.accepted
        decisions := result.1
        compacted := compacted
        terminated := result.2.1
        stateDelta := (reducer.closeBlock block o).deltaFromUndo reducer.tip
          (reducer.closeBlock block o).tip o.journal }, reducer.closeBlock block o) := by
    rw [applyBlockDetailed, hadmission]
    simp only [hstart, hrun, Option.bind_eq_bind, Option.bind_some, Option.pure_def]
  have hreference : reducer.scan.applyBlock block evidence = .ok
      (⟨result.1.filterMap OperationDecision.accepted, result.1,
        (reducer.ledger.markExpired block.height).compactions reducer.rules.parameters block.height,
        result.2.1⟩, (reducer.closeBlock block o).scan) := by
    have hadmission' : admission reducer.scan.rules.parameters reducer.scan.nextHeight
        reducer.scan.previousHash reducer.scan.ledger.commits block evidence = .ok supplied :=
      hadmission
    rw [ScanReducer.applyBlock, hadmission', hscan]
    rfl
  exact ⟨_, o, _, happly, htracks, hreference, rfl, rfl, rfl, horder, rfl⟩

end Reducer

end Refinement

end CoppiceNames
