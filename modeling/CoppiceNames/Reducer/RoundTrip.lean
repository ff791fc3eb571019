import CoppiceNames.Reducer.History

/-!
# Loading a saved reducer

The loader accepts every state that calls can reach and returns it unchanged. It validates each
record against the tip, and each journaled record against the tip before its block, so what has to
be shown is the invariant of the ledger at two places: at the current tip and, for every retained
journal, at the tip that the journal leads back to (`Undo.Sound`). The latter holds because a
journal records values of the ledger before its block, and that ledger satisfied the invariant.

`Restorable` collects what the loader needs. It also bounds the names a reducer has records of, so
that the same result serves the full reducer and the exact resolver.
-/

open Std hiding not_le not_lt

namespace CoppiceNames

section RoundTrip

variable [Primitives]

/-- The address an operation publishes. -/
def Operation.ua : Operation → Option CanonicalUa
  | .commit _ => none
  | .reveal op => some op.ua
  | .refresh op => some op.ua

/-- Every operation of the block carries an address that is canonical for the network. -/
def Block.CanonicalFor (block : Block) (network : Network) : Prop :=
  ∀ transaction ∈ block.transactions, ∀ op ua, transaction.operation = some op → op.ua = some ua →
    ua.CanonicalFor network

/-- The block reveals no name outside `H`. -/
def Block.Reveals (block : Block) (H : Set NameId) : Prop :=
  ∀ transaction ∈ block.transactions, ∀ op nameId, transaction.operation = some (.reveal op) →
    op.name.id = .ok nameId → nameId ∈ H

/-! ### Addresses of heads -/

/-- Every head carries an address with the property. -/
def Ledger.UasAre (ledger : Ledger) (P : CanonicalUa → Prop) : Prop :=
  ∀ (nameId : NameId) (head : Head), ledger.heads[nameId]? = some head → P head.ua

namespace Ledger

variable {ledger : Ledger} {P : CanonicalUa → Prop} {rules : Rules} {height : U32}

theorem UasAre.insertHead (h : ledger.UasAre P) (nameId : NameId) {head : Head} (hua : P head.ua) :
    UasAre { ledger with heads := ledger.heads.insert nameId head } P := by
  intro a current ha
  rcases OrderedMap.getElem?_insert_eq_some_iff.1 ha with ⟨-, rfl⟩ | ⟨-, hold⟩
  · exact hua
  · exact h a current hold

theorem UasAre.startBlock (h : ledger.UasAre P) (parameters : Parameters)
    (supplied : OrderedMap CommitRef Commitment) :
    (ledger.startBlock parameters height supplied).UasAre P := by
  intro nameId head hhead
  obtain ⟨previous, hprevious, rfl, -⟩ := of_getElem?_startBlock hhead
  have hua := h nameId previous hprevious
  rw [Head.expire]
  split <;> exact hua

/-- One transaction installs at most the address of its own operation. -/
theorem UasAre.applyTransaction (h : ledger.UasAre P) {transaction : Transaction}
    (hop : ∀ op ua, transaction.operation = some op → op.ua = some ua → P ua) :
    (ledger.applyTransaction rules height transaction).2.2.UasAre P := by
  have hafter : (ledger.applyOperation rules height transaction).2.UasAre P := by
    rw [Ledger.applyOperation]
    rcases hoperation : transaction.operation with - | (commitment | op | op)
    · exact h
    · exact h
    · dsimp only
      rcases hresult : ledger.revealed rules height transaction op with clause | ⟨nameId, head⟩
      · exact h
      · obtain ⟨-, -, -, -, -, action, epoch, expiry, -, -, -, rfl⟩ := revealed_eq_ok hresult
        exact h.insertHead nameId (hop _ op.ua hoperation rfl)
    · dsimp only
      rcases hresult : ledger.refreshed rules height transaction op with clause | ⟨nameId, head⟩
      · exact h
      · obtain ⟨-, predecessor, -, -, -, -, action, epoch, expiry, -, -, -, -, -, -, rfl⟩ :=
          refreshed_eq_ok hresult
        exact h.insertHead nameId (hop _ op.ua hoperation rfl)
  intro nameId head hhead
  rw [Ledger.applyTransaction] at hhead
  dsimp only at hhead
  rw [getElem?_terminate, Option.map_eq_some_iff] at hhead
  obtain ⟨current, hcurrent, rfl⟩ := hhead
  have hua := hafter nameId current hcurrent
  rw [afterSpend]
  split <;> exact hua

theorem UasAre.applyTransactions (h : ledger.UasAre P) {transactions : List Transaction}
    (hop : ∀ transaction ∈ transactions, ∀ op ua, transaction.operation = some op →
      op.ua = some ua → P ua) :
    (ledger.applyTransactions rules height transactions).2.2.UasAre P := by
  induction transactions generalizing ledger with
  | nil => exact h
  | cons transaction rest ih =>
    exact ih (h.applyTransaction (hop transaction List.mem_cons_self)) fun t ht ↦
      hop t (List.mem_cons_of_mem transaction ht)

end Ledger

/-! ### Journals and states the loader accepts -/

/-- What the loader requires of one journal: its chain position is the one before its block, and
what it records was valid there. -/
structure Undo.Sound (parameters : Parameters) (network : Network) (H : Set NameId) (undo : Undo) :
    Prop where
  next : undo.previousNextHeight = some undo.height
  tip : undo.previousTipHeight =
    if undo.height = parameters.activationHeight then none else U32.checkedSub undo.height 1
  commit_le : ∀ reference ∈ undo.commits, reference.height ≤ undo.height
  commit : ∀ (reference : CommitRef) (commitment : Commitment),
    undo.commits[reference]? = some (some commitment) →
    ∃ tip, undo.previousTipHeight = some tip ∧ CommitInv parameters tip 4294967296 reference
  head_mem : ∀ nameId ∈ undo.heads, nameId ∈ H
  head : ∀ (nameId : NameId) (head : Head), undo.heads[nameId]? = some (some head) →
    ∃ tip, undo.previousTipHeight = some tip ∧ HeadInv parameters tip 4294967296 nameId head ∧
      head.ua.CanonicalFor network

/-- **What the loader requires of a reducer**, with records of names in `H` only. -/
structure Restorable (network : Network) (H : Set NameId) (reducer : Reducer) : Prop where
  indexed : reducer.toRecords.Indexed
  inv : reducer.scan.Inv
  uas : reducer.ledger.UasAre fun ua ↦ ua.CanonicalFor network
  head_mem : ∀ nameId ∈ reducer.heads, nameId ∈ H
  sound : ∀ undo ∈ reducer.history, undo.Sound reducer.rules.parameters network H
  below : ∀ undo ∈ reducer.history, ∃ tip, reducer.tipHeight = some tip ∧ undo.height ≤ tip
  last : ∀ undo, reducer.history.getLast? = some undo →
    some undo.height = reducer.tipHeight ∧ undo.hash = reducer.previousHash
  linked : reducer.history.IsChain Undo.Linked

namespace Restorable

variable {network : Network} {H : Set NameId} {reducer next : Reducer}

theorem new {parameters : Parameters} {parent : Bytes32} {verifier : ProofVerifier}
    (hnew : Reducer.new parameters parent verifier = .ok reducer) :
    Restorable network H reducer := by
  have hindexed := Reducer.indexed_new hnew
  have hinv := Reducer.inv_new hnew
  obtain ⟨valid, rfl⟩ := Reducer.new_eq_ok_iff.1 hnew
  refine ⟨hindexed, hinv, fun nameId head hhead ↦ ?_, fun nameId hmem ↦ ?_,
    fun undo hmem ↦ absurd hmem List.not_mem_nil, fun undo hmem ↦ absurd hmem List.not_mem_nil,
    fun undo hlast ↦ ?_, List.isChain_nil⟩
  · exact absurd hhead (by simp [Records.ledger, Records.empty])
  · exact absurd hmem (by simp [Records.empty])
  · exact absurd hlast (by simp)

theorem chained (h : Restorable network H reducer) : reducer.Chained := ⟨h.below, h.last, h.linked⟩

/-- Fewer journals. -/
theorem suffix (h : Restorable network H reducer) {history : List Undo}
    (hsuffix : history <:+ reducer.history) :
    Restorable network H { reducer with history := history } where
  indexed := h.indexed
  inv := h.inv
  uas := h.uas
  head_mem := h.head_mem
  sound undo hmem := h.sound undo (hsuffix.mem hmem)
  below := (h.chained.suffix hsuffix).below
  last := (h.chained.suffix hsuffix).last
  linked := (h.chained.suffix hsuffix).linked

/-- The records a tip has are valid there; without a tip there are none. -/
theorem commit_inv (h : Restorable network H reducer) {reference : CommitRef}
    (hmem : reference ∈ reducer.commits) : ∃ tip, reducer.tipHeight = some tip ∧
      CommitInv reducer.rules.parameters tip 4294967296 reference := by
  have hinv := h.inv
  rw [ScanReducer.Inv] at hinv
  split at hinv
  · have hempty : reducer.commits = ∅ := congrArg Ledger.commits hinv.2
    rw [hempty] at hmem
    exact absurd hmem ExtTreeMap.not_mem_empty
  · rename_i tip htip
    exact ⟨tip, htip, hinv.2.commit reference hmem⟩

theorem head_inv (h : Restorable network H reducer) {nameId : NameId} {head : Head}
    (hhead : reducer.heads[nameId]? = some head) : ∃ tip, reducer.tipHeight = some tip ∧
      HeadInv reducer.rules.parameters tip 4294967296 nameId head ∧
      head.ua.CanonicalFor network := by
  have hinv := h.inv
  rw [ScanReducer.Inv] at hinv
  split at hinv
  · have hempty : reducer.heads = ∅ := congrArg Ledger.heads hinv.2
    rw [hempty] at hhead
    exact absurd hhead (by simp)
  · rename_i tip htip
    exact ⟨tip, htip, hinv.2.head nameId head hhead, h.uas nameId head hhead⟩

/-- The position before the next block. -/
theorem position (h : Restorable network H reducer) {height : U32}
    (hheight : some height = reducer.nextHeight) :
    reducer.rules.parameters.activationHeight ≤ height ∧ reducer.tipHeight =
      if height = reducer.rules.parameters.activationHeight then none
      else U32.checkedSub height 1 := by
  have hinv := h.inv
  rw [ScanReducer.Inv] at hinv
  split at hinv
  · rename_i htip
    have hnext : reducer.nextHeight = some reducer.rules.parameters.activationHeight := hinv.1
    rw [hnext, Option.some.injEq] at hheight
    exact ⟨hheight.ge, by rw [if_pos hheight]; exact htip⟩
  · rename_i tip htip
    have hnext : reducer.nextHeight = U32.checkedAdd tip 1 := hinv.1
    rw [hnext] at hheight
    have hval : height.val = tip.val + 1 := U32.checkedAdd_eq_some_iff.1 hheight.symm
    have hle : reducer.rules.parameters.activationHeight.val ≤ tip.val := hinv.2.activation_le
    have htip' : reducer.tipHeight = some tip := htip
    have hne : height ≠ reducer.rules.parameters.activationHeight := by
      intro heq
      rw [heq] at hval
      omega
    refine ⟨by rw [Fin.le_def]; omega, ?_⟩
    rw [if_neg hne, htip', eq_comm, U32.checkedSub_eq_some_iff]
    rw [show height.val = tip.val + 1 from hval]
    grind

/-- The journal of an accepted block is sound. -/
theorem sound_close (h : Restorable network H reducer) {block : Block} {o : OpenBlock}
    (hheight : some block.height = reducer.nextHeight)
    (htracks : Tracks reducer.ledger {reference | reference.height ≤ block.height} H o) :
    Undo.Sound reducer.rules.parameters network H
      { reducer.newUndo block.height block.hash with toJournal := o.journal } where
  next := hheight.symm
  tip := (h.position hheight).2
  commit_le := htracks.commit_mem
  commit reference commitment hrecorded := by
    -- the recorded value is the one before the block
    have hbase : some commitment = reducer.commits[reference]? := htracks.commits.eq_base hrecorded
    exact h.commit_inv (OrderedMap.mem_of_getElem?_eq_some hbase.symm)
  head_mem := htracks.head_mem
  head nameId head hrecorded := by
    have hbase : some head = reducer.heads[nameId]? := htracks.heads.eq_base hrecorded
    exact h.head_inv hbase.symm

/-- **One accepted block.** -/
theorem apply (h : Restorable network H reducer) {block : Block} {evidence : List ReferencedCommit}
    {outcome : BlockOutcome} (hcanonical : block.CanonicalFor network) (hreveals : block.Reveals H)
    (happly : reducer.applyBlockDetailed block evidence = some (.ok outcome, next)) :
    Restorable network H next ∧ ∃ o, next = reducer.closeBlock block o ∧
      Tracks reducer.ledger {reference | reference.height ≤ block.height} H o ∧
      outcome.stateDelta = next.deltaFromUndo reducer.tip next.tip o.journal := by
  obtain ⟨supplied, -, -, -, -, -, hadmission, -⟩ := Reducer.applyBlockDetailed_eq_ok_iff.1 happly
  obtain ⟨hheight, -, -, hsupply⟩ := admission_eq_ok hadmission
  have hbelow : ∀ reference ∈ reducer.commits, reference.height ≤ block.height := by
    intro reference hmem
    obtain ⟨tip, htip, hcommit⟩ := h.commit_inv hmem
    have hposition := (h.position hheight).2
    have hle := hcommit.height_le
    rw [htip] at hposition
    split at hposition
    · exact absurd hposition (by simp)
    · have hval := (U32.checkedSub_eq_some_iff.1 hposition.symm).2
      grind
  obtain ⟨outcome', o, s, hok, htracks, hscan, -, -, -, -, hdelta⟩ :=
    Reducer.applyBlockDetailed_of_admission (C := {reference | reference.height ≤ block.height})
      (H := H) h.indexed hadmission hbelow h.head_mem
      (fun reference hmem ↦ (evidential_of_supply hsupply reference hmem).before.le)
      fun transaction hmem ↦ ⟨fun _ _ ↦ (le_rfl : block.height ≤ _), hreveals transaction hmem⟩
  rw [hok, Option.some.injEq, Prod.mk.injEq, Except.ok.injEq] at happly
  obtain ⟨rfl, rfl⟩ := happly
  refine ⟨?_, o, rfl, htracks, hdelta⟩
  obtain ⟨supplied', -, -, -, -, hadvance, -⟩ := ScanReducer.applyBlock_eq_ok hscan
  have hsound := h.sound_close hheight htracks
  have hchained := h.chained.close h.inv hheight o
  refine ⟨htracks.indexed, h.inv.applyBlock hscan, ?_, fun nameId hmem ↦ ?_, fun undo hmem ↦ ?_,
    hchained.below, hchained.last, hchained.linked⟩
  · have hledger : (reducer.closeBlock block o).ledger = ((reducer.ledger.startBlock
        reducer.rules.parameters block.height supplied').applyTransactions reducer.rules
          block.height block.transactions).2.2 := congrArg ScanReducer.ledger hadvance
    rw [hledger]
    exact (h.uas.startBlock _ _).applyTransactions hcanonical
  · -- a name that the block did not touch had a head before it
    by_cases hjournal : nameId ∈ o.journal.heads
    · exact htracks.head_mem nameId hjournal
    · have hsame := htracks.heads.unchanged (ExtTreeMap.getElem?_eq_none hjournal)
      rw [ExtTreeMap.mem_iff_isSome_getElem?] at hmem
      refine htracks.base_head_mem nameId ?_
      rw [ExtTreeMap.mem_iff_isSome_getElem?, ← hsame]
      exact hmem
  · rcases List.mem_append.1 hmem with hold | hnew
    · exact h.sound undo hold
    · rw [List.mem_singleton.1 hnew]
      exact hsound

end Restorable

/-! ### The loader on stored records -/

omit [Primitives] in
theorem validateCommit_eq_ok {parameters : Parameters} {tip : U32} {bound : ℕ}
    {reference : CommitRef} (h : CommitInv parameters tip bound reference) :
    validateCommit parameters (some tip) reference = .ok () := by
  rw [validateCommit, if_neg]
  simp only [not_or, not_lt, ge_iff_le, gt_iff_lt, not_le]
  refine ⟨h.activation_le, h.height_le, ?_⟩
  rw [Fin.lt_def, Fin.sub_val_of_le h.height_le]
  exact h.age_lt

/-- The encoded fields of a stored head parse back. -/
structure Head.Parses (network : Network) (head : Head) : Prop where
  name : Name.parse head.store.name = .ok head.name
  ua : CanonicalUa.parse network head.store.ua = .ok head.ua
  commitment : FieldElement.fromBytes head.store.commitment = .ok head.commitment
  futureNf : FieldElement.fromBytes head.store.futureNf = .ok head.futureNf

theorem Head.parses_store {network : Network} {head : Head}
    (hua : head.ua.CanonicalFor network) : head.Parses network where
  name := Name.parse_asStr head.name
  ua := CanonicalUa.parse_eq_ok_iff.2 ⟨rfl, hua⟩
  commitment := FieldElement.fromBytes_bytes head.commitment
  futureNf := FieldElement.fromBytes_bytes head.futureNf

/-- **A valid head is restored.** -/
theorem restoreHead_store {parameters : Parameters} {network : Network} {tip : U32} {bound : ℕ}
    {nameId : NameId} {head : Head} (h : HeadInv parameters tip bound nameId head)
    (hua : head.ua.CanonicalFor network) :
    restoreHead parameters network (some tip) head.store = .ok head := by
  have hparses := head.parses_store hua
  have hepoch : parameters.epoch head.store.producer.height = .ok head.producerEpoch := h.epoch
  have hexpiry : parameters.expiry head.store.producer.height = .ok head.expiryHeight := h.expiry
  -- the bounds on the heights of the head
  have hbounds : ¬ (head.store.producer.height > tip ∨
      head.store.producerEpoch ≠ head.producerEpoch ∨
      head.store.expiryHeight ≠ head.expiryHeight ∨
      head.store.terminalHeight.any (fun height ↦
        height < head.store.producer.height ∨ height > tip) = true) := by
    rintro (hlate | hne | hne | hterminal)
    · exact absurd h.producer_le (not_le.2 hlate)
    · exact hne rfl
    · exact hne rfl
    · rw [Option.any_eq_true] at hterminal
      obtain ⟨x, hx, hrange⟩ := hterminal
      obtain ⟨h₁, h₂, -, -⟩ := h.terminal x hx
      rw [decide_eq_true_eq] at hrange
      rcases hrange with hlt | hgt
      · exact absurd h₁ (not_le.2 hlt)
      · exact absurd h₂ (not_le.2 hgt)
  have hlive : ¬ (head.terminalHeight = none ∧ tip ≥ head.expiryHeight ∨
      head.isClaimable tip parameters = true) := by
    rintro (⟨hnone, hexpired⟩ | hclaimable)
    · exact absurd hexpired (not_le.2 (h.active hnone))
    · rw [h.isClaimable_eq] at hclaimable
      exact Bool.false_ne_true hclaimable
  rw [restoreHead]
  dsimp only
  rw [hparses.name, hparses.ua, hparses.commitment, hparses.futureNf, hepoch, hexpiry]
  dsimp only
  rw [if_neg hbounds]
  exact if_neg hlive

/-- An entry of a journal is restored. -/
theorem restoreCommitUndo_store {parameters : Parameters} {network : Network} {H : Set NameId}
    {undo : Undo} (h : undo.Sound parameters network H) {entry : CommitRef × Option Commitment}
    (hentry : entry ∈ undo.commits.toList) :
    restoreCommitUndo parameters undo.height undo.previousTipHeight
      (entry.1, entry.2.map Commitment.bytes) = .ok entry := by
  obtain ⟨reference, recorded⟩ := entry
  have hrecorded := OrderedMap.getElem?_eq_some_iff_mem_toList.2 hentry
  have hle : ¬ reference.height > undo.height :=
    not_lt.2 (h.commit_le reference (OrderedMap.mem_of_getElem?_eq_some hrecorded))
  rcases recorded with - | commitment
  · exact if_neg hle
  · obtain ⟨tip, htip, hinv⟩ := h.commit reference commitment hrecorded
    rw [restoreCommitUndo]
    dsimp only [Option.map_some]
    rw [Commitment.fromBytes_bytes]
    refine if_neg ?_
    rw [htip, validateCommit_eq_ok hinv]
    simpa using hle

theorem restoreHeadUndo_store {parameters : Parameters} {network : Network} {H : Set NameId}
    {undo : Undo} (h : undo.Sound parameters network H) {entry : NameId × Option Head}
    (hentry : entry ∈ undo.heads.toList) :
    restoreHeadUndo parameters network undo.previousTipHeight
      (entry.1.bytes, entry.2.map Head.store) = .ok entry := by
  obtain ⟨nameId, recorded⟩ := entry
  have hrecorded := OrderedMap.getElem?_eq_some_iff_mem_toList.2 hentry
  rw [restoreHeadUndo]
  dsimp only
  rw [NameId.fromBytes_bytes]
  rcases recorded with - | head
  · rfl
  · obtain ⟨tip, htip, hinv, hua⟩ := h.head nameId head hrecorded
    dsimp only [Option.map_some]
    rw [htip, restoreHead_store hinv hua]
    exact if_neg (not_not.2 hinv.name)

/-- **A sound journal is restored.** -/
theorem restoreUndo_store {parameters : Parameters} {network : Network} {H : Set NameId}
    {undo : Undo} (h : undo.Sound parameters network H) {tip : U32} (hle : undo.height ≤ tip) :
    restoreUndo parameters network (some tip) undo.store = .ok undo := by
  have hcommits := OrderedMap.loadAll_toList SnapshotError.invalidHistory undo.commits
    fun _ ↦ restoreCommitUndo_store h
  have hheads := OrderedMap.loadAll_toList SnapshotError.invalidHistory undo.heads
    fun _ ↦ restoreHeadUndo_store h
  have hposition : ¬ ((some tip).all (fun tip ↦ undo.store.height > tip) = true ∨
      undo.store.previousNextHeight ≠ some undo.store.height ∨
      undo.store.previousTipHeight ≠ if undo.store.height = parameters.activationHeight then none
        else U32.checkedSub undo.store.height 1) := by
    rintro (hlate | hne | hne)
    · rw [Option.all_some, decide_eq_true_eq] at hlate
      exact absurd hle (not_le.2 hlate)
    · exact hne h.next
    · exact hne h.tip
  rw [restoreUndo]
  rw [if_neg hposition]
  rw [show undo.store.commits = undo.commits.toList.map _ from rfl,
    show undo.store.heads = undo.heads.toList.map _ from rfl]
  rw [show undo.store.height = undo.height from rfl,
    show undo.store.previousTipHeight = undo.previousTipHeight from rfl, hcommits]
  dsimp only
  rw [hheads]
  rfl

theorem validateHistory_eq_ok {tipHeight : Option U32} {previousHash : Bytes32}
    {history : List Undo}
    (hlast : ∀ undo, history.getLast? = some undo →
      some undo.height = tipHeight ∧ undo.hash = previousHash)
    (hlinked : history.IsChain Undo.Linked) :
    validateHistory tipHeight previousHash history = .ok () := by
  have hpairs : ∀ {l : List Undo}, l.IsChain Undo.Linked → (l.zip l.tail).any (fun pair ↦
      U32.checkedAdd pair.1.height 1 ≠ some pair.2.height ∨
        pair.2.previousHash ≠ pair.1.hash) = false := by
    intro l hl
    induction hl with
    | nil => rfl
    | singleton undo => rfl
    | cons_cons hfirst _ ih =>
      rw [List.tail_cons, List.zip_cons_cons, List.any_cons, Bool.or_eq_false_iff]
      exact ⟨by simp [hfirst.1, hfirst.2], ih⟩
  rw [validateHistory]
  split
  · rfl
  · rename_i undo hundo
    obtain ⟨hheight, hhash⟩ := hlast undo hundo
    rw [if_neg (by simp [hheight, hhash]), hpairs hlinked, if_neg Bool.false_ne_true]

namespace Restorable

variable {network : Network} {H : Set NameId} {reducer : Reducer}

theorem validateTip_eq_ok (h : Restorable network H reducer) :
    validateTip reducer.rules.parameters reducer.nextHeight reducer.tipHeight = .ok () := by
  have hinv := h.inv
  rw [ScanReducer.Inv] at hinv
  split at hinv
  · rename_i htip
    rw [show reducer.tipHeight = none from htip]
    exact if_pos hinv.1
  · rename_i tip htip
    rw [show reducer.tipHeight = some tip from htip]
    exact if_pos ⟨hinv.2.activation_le, hinv.1⟩

/-- **Loading the stored structure gives the reducer back.** -/
theorem restore_store (h : Restorable network H reducer) :
    Reducer.restore reducer.rules.parameters network reducer.rules.verifier reducer.rules.valid
      reducer.store = .ok reducer := by
  have hcommits : OrderedMap.loadAll (restoreCommit reducer.rules.parameters reducer.tipHeight)
      .invalidState ∅ reducer.store.commits = .ok reducer.commits := by
    refine OrderedMap.loadAll_toList _ reducer.commits fun entry hentry ↦ ?_
    have hsome := OrderedMap.getElem?_eq_some_iff_mem_toList.2 hentry
    obtain ⟨tip, htip, hinv⟩ := h.commit_inv (OrderedMap.mem_of_getElem?_eq_some hsome)
    rw [restoreCommit]
    dsimp only
    rw [Commitment.fromBytes_bytes, htip, validateCommit_eq_ok hinv]
  have hheads : OrderedMap.loadAll (restoreNamedHead reducer.rules.parameters network
      reducer.tipHeight) .invalidState ∅ reducer.store.heads = .ok reducer.heads := by
    refine OrderedMap.loadAll_toList _ reducer.heads fun entry hentry ↦ ?_
    obtain ⟨tip, htip, hinv, hua⟩ :=
      h.head_inv (OrderedMap.getElem?_eq_some_iff_mem_toList.2 hentry)
    rw [restoreNamedHead]
    dsimp only
    rw [NameId.fromBytes_bytes, htip, restoreHead_store hinv hua]
    exact if_neg (not_not.2 hinv.name)
  have hjournals : ∀ history : List Undo,
      (∀ undo ∈ history, undo ∈ reducer.history) →
      (history.map Undo.store).mapM (restoreUndo reducer.rules.parameters network
        reducer.tipHeight) = .ok history := by
    intro history
    induction history with
    | nil => exact fun _ ↦ rfl
    | cons undo history ih =>
      intro hmem
      obtain ⟨tip, htip, hle⟩ := h.below undo (hmem undo List.mem_cons_self)
      have hundo := restoreUndo_store (h.sound undo (hmem undo List.mem_cons_self)) hle
      rw [← htip] at hundo
      rw [List.map_cons, List.mapM_cons, hundo,
        ih fun undo' hundo' ↦ hmem undo' (List.mem_cons_of_mem undo hundo')]
      rfl
  refine Reducer.restore_eq_ok_iff.2 ⟨rfl, rfl, rfl, rfl, h.validateTip_eq_ok, reducer.commits,
    reducer.heads, reducer.history, hcommits, hheads, hjournals reducer.history fun _ hmem ↦ hmem,
    validateHistory_eq_ok h.last h.linked, rfl, ?_⟩
  -- the rebuilt indexes are the ones the reducer had
  have hrecords : (Records.mk reducer.commits reducer.heads ∅ ∅ ∅ ∅).rebuildDerivedIndexes =
      reducer.toRecords :=
    (Records.indexed_iff_rebuild reducer.toRecords).1 h.indexed
  rw [hrecords]
  rfl

/-- **A snapshot round trip of a restorable reducer.** -/
theorem loadSnapshot_saveSnapshot (h : Restorable network H reducer) {B : Type}
    {serde : Serde B StoredReducer} (hserde : serde.RoundTrips) :
    ∃ bytes, reducer.saveSnapshot serde = .ok bytes ∧
      Reducer.loadSnapshot serde reducer.rules.parameters network reducer.rules.verifier bytes =
        .ok reducer := by
  obtain ⟨bytes, hwrite, hread⟩ := hserde reducer.store
  refine ⟨bytes, by rw [Reducer.saveSnapshot, hwrite], ?_⟩
  rw [Reducer.loadSnapshot]
  split
  · rename_i e he
    rw [Parameters.validate_eq_ok_iff.2 reducer.rules.valid] at he
    exact absurd he (by simp)
  · rw [hread]
    exact h.restore_store

end Restorable

/-! ### Replays of canonical blocks -/

/-- A replay of blocks with canonical addresses that reveal names in `H` only. -/
theorem Restorable.replay {network : Network} {H : Set NameId} {start fresh : Reducer}
    {blocks : List (Block × List ReferencedCommit)} (h : Restorable network H start)
    (hblocks : ∀ block ∈ blocks, block.1.CanonicalFor network ∧ block.1.Reveals H)
    (hreplay : start.replay blocks = some fresh) : Restorable network H fresh := by
  induction blocks using List.reverseRecOn generalizing fresh with
  | nil =>
    rw [← Option.some.inj hreplay]
    exact h
  | append_singleton blocks block ih =>
    rw [Reducer.replay_append, Option.bind_eq_some_iff] at hreplay
    obtain ⟨previous, hprevious, haccept⟩ := hreplay
    obtain ⟨outcome, happly⟩ := Reducer.accept_eq_some_iff.1 haccept
    have hlast := hblocks block (List.mem_append_right blocks (List.mem_singleton_self block))
    exact ((ih (fun b hb ↦ hblocks b (List.mem_append_left _ hb)) hprevious).apply hlast.1 hlast.2
      happly).1

/-- Whatever journals are retained, a surviving state is restorable. -/
theorem Survives.restorable {network : Network} {H : Set NameId} {start reducer : Reducer}
    {blocks : List (Block × List ReferencedCommit)} (h : Survives start blocks reducer)
    (hstart : Restorable network H start)
    (hblocks : ∀ block ∈ blocks, block.1.CanonicalFor network ∧ block.1.Reveals H) :
    Restorable network H reducer := by
  obtain ⟨fresh, hreplay, hreducer, hsuffix⟩ := h
  rw [hreducer]
  exact (hstart.replay hblocks hreplay).suffix hsuffix

/-- The block of a call, if it applies one. -/
def Call.block : Call → Option Block
  | .applyBlock block _ => some block
  | _ => none

/-- A call adds at most its own block to the surviving ones. -/
theorem mem_survivorsAfter {blocks : List (Block × List ReferencedCommit)}
    {c : Call} {reply : Reply}
    {block : Block × List ReferencedCommit} (h : block ∈ survivorsAfter blocks (c, reply)) :
    block ∈ blocks ∨ c.block = some block.1 := by
  rw [survivorsAfter.eq_def] at h
  split at h
  · rename_i heq
    rw [List.mem_append, List.mem_singleton] at h
    rcases h with h | rfl
    · exact Or.inl h
    · rw [Prod.mk.injEq] at heq
      rw [heq.1]
      exact Or.inr rfl
  · exact Or.inl (List.mem_of_mem_dropLast h)
  · exact Or.inl h

/-- The states that calls with canonical addresses and snapshot reloads reach from a new reducer. -/
inductive Reloaded {B : Type} (serde : Serde B StoredReducer) (network : Network)
    (parameters : Parameters) (parent : Bytes32) (verifier : ProofVerifier) : Reducer → Prop
  | new {reducer : Reducer} (h : Reducer.new parameters parent verifier = .ok reducer) :
      Reloaded serde network parameters parent verifier reducer
  | call {reducer next : Reducer} {c : Call} {reply : Reply}
      (hreached : Reloaded serde network parameters parent verifier reducer)
      (hcanonical : ∀ block, c.block = some block → block.CanonicalFor network)
      (h : reducer.call c = some (reply, next)) :
      Reloaded serde network parameters parent verifier next
  | reload {reducer next : Reducer} {bytes : B}
      (hreached : Reloaded serde network parameters parent verifier reducer)
      (hsave : reducer.saveSnapshot serde = .ok bytes)
      (hload : Reducer.loadSnapshot serde parameters network verifier bytes = .ok next) :
      Reloaded serde network parameters parent verifier next

/-- A reducer with canonical surviving blocks, from a new one. -/
def SurvivesNew (network : Network) (H : Set NameId) (parameters : Parameters) (parent : Bytes32)
    (verifier : ProofVerifier) (reducer : Reducer) : Prop :=
  ∃ start blocks, Reducer.new parameters parent verifier = .ok start ∧
    Survives start blocks reducer ∧
    ∀ block ∈ blocks, block.1.CanonicalFor network ∧ block.1.Reveals H

namespace SurvivesNew

variable {network : Network} {H : Set NameId} {parameters : Parameters} {parent : Bytes32}
  {verifier : ProofVerifier} {reducer next : Reducer}

theorem new (h : Reducer.new parameters parent verifier = .ok reducer) :
    SurvivesNew network H parameters parent verifier reducer :=
  ⟨reducer, [], h, ⟨reducer, rfl, rfl, List.suffix_refl _⟩,
    fun _ hmem ↦ absurd hmem List.not_mem_nil⟩

theorem call (h : SurvivesNew network H parameters parent verifier reducer) {c : Call}
    {reply : Reply}
    (hblock : ∀ block, c.block = some block → block.CanonicalFor network ∧ block.Reveals H)
    (hcall : reducer.call c = some (reply, next)) :
    SurvivesNew network H parameters parent verifier next := by
  obtain ⟨start, blocks, hnew, hsurvives, hblocks⟩ := h
  have hempty : start.history = [] := by
    obtain ⟨valid, rfl⟩ := Reducer.new_eq_ok_iff.1 hnew
    rfl
  refine ⟨start, _, hnew, hsurvives.call (Reducer.indexed_new hnew) hempty hcall,
    fun block hmem ↦ ?_⟩
  rcases mem_survivorsAfter hmem with hold | hnewest
  · exact hblocks block hold
  · exact hblock block.1 hnewest

theorem restorable (h : SurvivesNew network H parameters parent verifier reducer) :
    Restorable network H reducer := by
  obtain ⟨start, blocks, hnew, hsurvives, hblocks⟩ := h
  exact hsurvives.restorable (Restorable.new hnew) hblocks

theorem rules (h : SurvivesNew network H parameters parent verifier reducer) :
    reducer.rules.parameters = parameters ∧ reducer.rules.verifier = verifier := by
  obtain ⟨start, blocks, hnew, hsurvives, -⟩ := h
  rw [hsurvives.rules]
  obtain ⟨valid, rfl⟩ := Reducer.new_eq_ok_iff.1 hnew
  exact ⟨rfl, rfl⟩

/-- Saving succeeds, and loading gives the same reducer. -/
theorem roundTrip (h : SurvivesNew network H parameters parent verifier reducer) {B : Type}
    {serde : Serde B StoredReducer} (hserde : serde.RoundTrips) :
    ∃ bytes, reducer.saveSnapshot serde = .ok bytes ∧
      Reducer.loadSnapshot serde parameters network verifier bytes = .ok reducer := by
  obtain ⟨hparameters, hverifier⟩ := h.rules
  have hround := h.restorable.loadSnapshot_saveSnapshot hserde
  rw [hparameters, hverifier] at hround
  exact hround

end SurvivesNew

/-- A reload changes nothing, so reloads add no states. -/
theorem Reloaded.survivesNew {B : Type} {serde : Serde B StoredReducer} (hserde : serde.RoundTrips)
    {network : Network} {parameters : Parameters} {parent : Bytes32} {verifier : ProofVerifier}
    {reducer : Reducer} (h : Reloaded serde network parameters parent verifier reducer) :
    SurvivesNew network Set.univ parameters parent verifier reducer := by
  induction h with
  | new h => exact .new h
  | call _ hcanonical h ih =>
    exact ih.call (fun block hblock ↦ ⟨hcanonical block hblock, fun _ _ _ _ _ _ ↦ trivial⟩) h
  | reload _ hsave hload ih =>
    obtain ⟨bytes, hsave', hload'⟩ := ih.roundTrip hserde
    rw [hsave, Except.ok.injEq] at hsave'
    rw [← hsave', hload, Except.ok.injEq] at hload'
    rw [hload']
    exact ih

end RoundTrip

end CoppiceNames
