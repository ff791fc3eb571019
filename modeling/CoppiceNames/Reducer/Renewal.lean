import CoppiceNames.Protocol.Windows
import CoppiceNames.Reducer.Epochs
import CoppiceNames.Reducer.Lineage

/-!
# Renewal

An owner who keeps the future nullifier of a head unspent can renew the name one epoch later. A
lease is longer than an epoch, so the head is still active then (`heads_of_standsSince`); the
windows of a name repeat with every epoch, so the same offset of the next epoch accepts operations
again (`Parameters.acceptsOperation_next`); and the checks of a REFRESH ask for nothing else
(`Ledger.refreshed_of_checks`).

The induction is over the blocks since the head was accepted. What one transaction can do to an
active head is known (`HeadEffect`): without a spend of its nullifier it stays as it is, whatever
operation the transaction carries.
-/

open Std hiding not_le not_lt

namespace CoppiceNames

section Renewal

variable [Primitives]

/-! ### One epoch later -/

namespace Parameters

variable {parameters : Parameters} {nameId : NameId} {height next epoch : U32}

omit [Primitives] in
/-- One epoch later is in the next epoch. -/
theorem epoch_next (hvalid : parameters.Valid) (hepoch : parameters.epoch height = .ok epoch)
    (hnext : next.val = height.val + parameters.epochBlocks.val) :
    ∃ epoch', parameters.epoch next = .ok epoch' ∧ epoch'.val = epoch.val + 1 := by
  obtain ⟨hactive, hval⟩ := epoch_eq_ok_iff.1 hepoch
  have hpos := hvalid.epoch_pos
  rw [Fin.le_def] at hactive
  have hafter : parameters.activationHeight ≤ next := by
    rw [Fin.le_def]
    omega
  refine ⟨_, if_neg (not_lt.2 hafter), ?_⟩
  rw [Fin.div_val, Fin.sub_val_of_le hafter, hval, hnext,
    show height.val + parameters.epochBlocks.val - parameters.activationHeight.val =
      height.val - parameters.activationHeight.val + parameters.epochBlocks.val by omega,
    Nat.add_div_right _ hpos]

/-- **The window opens again one epoch later.** -/
theorem acceptsOperation_next (hvalid : parameters.Valid)
    (haccepts : parameters.acceptsOperation nameId height = true)
    (hnext : next.val = height.val + parameters.epochBlocks.val)
    (hfits : next.val + parameters.leaseBlocks.val ≤ 4294967295) :
    parameters.acceptsOperation nameId next = true := by
  obtain ⟨index, hcovers, -⟩ := (acceptsOperation_iff hvalid).1 haccepts
  have hlater : (windows hvalid nameId).Covers (index + 1) next.val := by
    rw [hnext]
    exact PeriodicWindows.covers_add_period.2 hcovers
  refine (acceptsOperation_iff hvalid).2 ⟨index + 1, hlater, ?_⟩
  -- the window ends at most its width after this height, and a lease is longer than that
  have hshort : parameters.windowBlocks < parameters.leaseBlocks :=
    (hvalid.window_le.trans_lt (hvalid.maturity_lt.trans hvalid.ttl_lt)).trans hvalid.epoch_lt
  have hstart := hlater.1
  rw [Fin.lt_def] at hshort
  show (windows hvalid nameId).start (index + 1) + parameters.windowBlocks.val ≤ 4294967295
  omega

end Parameters

/-! ### One transaction -/

/-- No action of these transactions spends the nullifier. -/
def Unspent (futureNf : FieldElement) (transactions : List Transaction) : Prop :=
  ∀ transaction ∈ transactions, ∀ action ∈ transaction.actions, action.nullifier ≠ futureNf

namespace Ledger

variable {ledger : Ledger} {rules : Rules} {height : U32} {transaction : Transaction} {bound : ℕ}
  {nameId : NameId} {head : Head}

/-- An accepted REFRESH of a name spends the head it replaces. -/
theorem exists_spend_of_refreshes (hhead : ledger.heads[nameId]? = some head) {op : Refresh}
    (h : Refreshes transaction (ledger.applyOperation rules height transaction).1 nameId op) :
    ∃ action ∈ transaction.actions, action.nullifier = head.futureNf := by
  obtain ⟨hop, haccepted, hname⟩ := h
  rcases applyOperation_cases ledger rules height transaction with
    ⟨op', id, installed, hop', -⟩ | ⟨op', id, installed, hop', hresult, -⟩ |
      ⟨commitment, hop', -⟩ | ⟨clause, heq⟩
  · rw [hop] at hop'
    exact absurd hop' (by simp)
  · rw [hop, Option.some.injEq, Operation.refresh.injEq] at hop'
    subst hop'
    obtain ⟨hname', predecessor, hpredecessor, -, -, -, action, epoch, expiry, haction, -, hspends,
      -⟩ := refreshed_eq_ok hresult
    rw [hname, Except.ok.injEq] at hname'
    rw [← hname', hhead, Option.some.injEq] at hpredecessor
    exact ⟨action, List.mem_of_getElem? haction, hpredecessor ▸ hspends⟩
  · rw [hop] at hop'
    exact absurd hop' (by simp)
  · rw [heq] at haccepted
    exact absurd haccepted (by simp)

/-- **An active head that is not spent stays as it is.** -/
theorem Inv.applyTransaction_unspent (h : ledger.Inv rules.parameters height bound)
    (hbound : bound ≤ transaction.txIndex.val) (hhead : ledger.heads[nameId]? = some head)
    (hactive : head.terminalHeight = none)
    (hunspent : ∀ action ∈ transaction.actions, action.nullifier ≠ head.futureNf) :
    (ledger.applyTransaction rules height transaction).2.2.heads[nameId]? = some head := by
  have hnone : ¬ ∃ action ∈ transaction.actions, action.nullifier = head.futureNf := by
    rintro ⟨action, hmem, hspends⟩
    exact hunspent action hmem hspends
  refine (h.headEffect hbound hhead).unchanged hactive ?_ hnone
  rintro ⟨op, hrefreshes⟩
  exact hnone (exists_spend_of_refreshes hhead hrefreshes)

theorem Inv.applyTransactions_unspent {previous : Option U32} {transactions : List Transaction}
    (hcheck : checkTransactions previous transactions = .ok ())
    (h : ledger.Inv rules.parameters height (nextIndex previous))
    (hhead : ledger.heads[nameId]? = some head) (hactive : head.terminalHeight = none)
    (hunspent : Unspent head.futureNf transactions) :
    (ledger.applyTransactions rules height transactions).2.2.heads[nameId]? = some head := by
  induction transactions generalizing ledger previous with
  | nil => exact hhead
  | cons transaction rest ih =>
    obtain ⟨hbound, -, hrest⟩ := checkTransactions_cons hcheck
    have hkept := h.applyTransaction_unspent hbound hhead hactive
      (hunspent transaction List.mem_cons_self)
    exact ih hrest (h.applyTransaction hbound) hkept
      fun t ht ↦ hunspent t (List.mem_cons_of_mem transaction ht)

/-- A head installed by a transaction of a block, at the end of that block. -/
theorem Inv.applyTransactions_installed {previous : Option U32} {before after : List Transaction}
    (hcheck : checkTransactions previous (before ++ transaction :: after) = .ok ())
    (h : ledger.Inv rules.parameters height (nextIndex previous))
    (hhead : ((ledger.applyTransactions rules height before).2.2.applyTransaction rules height
      transaction).2.2.heads[nameId]? = some head) (hactive : head.terminalHeight = none)
    (hunspent : Unspent head.futureNf after) :
    (ledger.applyTransactions rules height (before ++ transaction :: after)).2.2.heads[nameId]? =
      some head := by
  induction before generalizing ledger previous with
  | nil =>
    obtain ⟨hbound, -, hrest⟩ := checkTransactions_cons hcheck
    show (((ledger.applyTransaction rules height transaction).2.2.applyTransactions rules height
      after).2.2.heads[nameId]?) = some head
    exact Inv.applyTransactions_unspent hrest (h.applyTransaction hbound) hhead hactive hunspent
  | cons first before ih =>
    obtain ⟨hbound, -, hrest⟩ := checkTransactions_cons hcheck
    exact ih hrest (h.applyTransaction hbound) hhead

/-- Block start before the end of the lease. -/
theorem getElem?_startBlock_active {parameters : Parameters}
    (supplied : OrderedMap CommitRef Commitment) (hhead : ledger.heads[nameId]? = some head)
    (hactive : head.terminalHeight = none) (hlease : height < head.expiryHeight) :
    (ledger.startBlock parameters height supplied).heads[nameId]? = some head := by
  have hsame : head.expire height = head := by
    rw [Head.expire, if_neg fun hexpired ↦ absurd hexpired.2 (not_le.2 hlease)]
  have hkept : head.released parameters height = false := by
    rw [Head.released, hactive]
    rfl
  rw [getElem?_startBlock, hhead, Option.map_some, hsame, Option.filter_some_pos (by simp [hkept])]

/-- **What a REFRESH needs.** -/
theorem refreshed_of_checks {op : Refresh} {action : Action} {epoch expiry : U32}
    (hname : op.name.id = .ok nameId) (hhead : ledger.heads[nameId]? = some head)
    (hepoch : rules.parameters.epoch height = .ok epoch)
    (hactive : head.lifecycle height rules.parameters = .active)
    (hproducer : op.predecessor = head.producer) (hlater : head.producerEpoch < epoch)
    (haccepts : rules.parameters.acceptsOperation nameId height = true)
    (haction : transaction.actions[op.actionIndex.val]? = some action)
    (hindex : action.actionIndex = op.actionIndex) (hspends : action.nullifier = head.futureNf)
    (hproof : rules.verifier.verifyRefresh
      { deploymentId := rules.parameters.deploymentId
        nameId := nameId
        predecessorRef := head.producer
        predecessorCommitment := head.commitment
        predecessorFutureNf := head.futureNf
        predecessorEpoch := head.producerEpoch
        inclusionEpoch := epoch
        ua := op.ua
        actionIndex := op.actionIndex
        actionNullifier := action.nullifier
        actionCommitment := action.commitment
        successorFutureNf := op.successorFutureNf } op.proof = true)
    (hexpiry : rules.parameters.expiry height = .ok expiry) :
    ledger.refreshed rules height transaction op = .ok (nameId, transaction.successor height op.name
      op.ua op.actionIndex action.commitment op.successorFutureNf epoch expiry) := by
  rw [refreshed.eq_def]
  dsimp only
  rw [hname]
  dsimp only
  rw [hhead]
  dsimp only
  rw [hepoch]
  dsimp only
  rw [if_neg (by simp [hactive, hproducer]), if_neg (not_le.2 hlater), if_neg (by simp [haccepts]),
    haction]
  dsimp only
  rw [if_neg (by simp [hindex, hspends]), hproducer, if_neg (by simp [hproof]), hexpiry]

end Ledger

omit [Primitives] in
/-- In an admitted block the action at a position carries that position as its index. -/
theorem actionIndex_of_canonicalActions {actions : List Action} {index : U32} {action : Action}
    (h : canonicalActions actions = true) (haction : actions[index.val]? = some action) :
    action.actionIndex = index := by
  rw [canonicalActions, List.all_eq_true] at h
  have hmem : (action, index.val) ∈ actions.zipIdx := by
    rw [List.mem_zipIdx_iff_getElem?]
    exact haction
  have hindex := h _ hmem
  rw [beq_iff_eq, show U32.ofUsize index.val = some index from
    U32.ofUsize_eq_some_iff.2 rfl] at hindex
  exact hindex

theorem canonicalActions_of_checkTransactions {previous : Option U32}
    {before after : List Transaction} {transaction : Transaction}
    (h : checkTransactions previous (before ++ transaction :: after) = .ok ()) :
    canonicalActions transaction.actions = true := by
  induction before generalizing previous with
  | nil => exact (checkTransactions_cons h).2.1
  | cons first before ih => exact ih (checkTransactions_cons h).2.2

/-! ### One block -/

/-- The transaction carries a REVEAL or REFRESH of the name that is accepted there, and installs the
head. -/
def Installs (reducer : Reducer) (block : Block) (evidence : List ReferencedCommit)
    (before : List Transaction) (transaction : Transaction) (nameId : NameId)
    (head : Head) : Prop :=
  ∃ terminated o decision terminated' o', InsideBlock reducer block evidence before terminated o ∧
    o.applyTransactionDetailed reducer.rules block.height transaction terminated =
      some (decision, terminated', o') ∧
    transaction.operates decision nameId = true ∧ o'.records.heads[nameId]? = some head

namespace Ledger

variable {ledger : Ledger} {rules : Rules} {height : U32} {transaction : Transaction} {bound : ℕ}
  {nameId : NameId} {head : Head}

/-- An accepted REVEAL or REFRESH installs a head at the transaction's own position. -/
theorem producer_of_operates
    (hoperates : transaction.operates (ledger.applyTransaction rules height transaction).1 nameId =
      true)
    (hhead : (ledger.applyTransaction rules height transaction).2.2.heads[nameId]? = some head) :
    head.producer.height = height ∧ head.producer.txIndex = transaction.txIndex := by
  rw [applyTransaction] at hoperates hhead
  dsimp only at hoperates hhead
  rw [getElem?_terminate, Option.map_eq_some_iff] at hhead
  obtain ⟨installed, hinstalled, rfl⟩ := hhead
  rw [afterSpend_producer]
  rw [Transaction.operates.eq_def] at hoperates
  rcases applyOperation_cases ledger rules height transaction with
    ⟨op, id, current, hop, hresult, heq⟩ | ⟨op, id, current, hop, hresult, heq⟩ |
      ⟨commitment, hop, heq⟩ | ⟨clause, heq⟩
  · rw [hop] at hoperates
    simp only [decide_eq_true_eq] at hoperates
    obtain ⟨hname, -, -, -, -, action, epoch, expiry, -, -, -, rfl⟩ := revealed_eq_ok hresult
    rw [hname, Except.ok.injEq] at hoperates
    rw [heq, hoperates.1, ExtTreeMap.getElem?_insert_self, Option.some.injEq] at hinstalled
    rw [← hinstalled]
    exact ⟨rfl, rfl⟩
  · rw [hop] at hoperates
    simp only [decide_eq_true_eq] at hoperates
    obtain ⟨hname, predecessor, -, -, -, -, action, epoch, expiry, -, -, -, -, -, -, rfl⟩ :=
      refreshed_eq_ok hresult
    rw [hname, Except.ok.injEq] at hoperates
    rw [heq, hoperates.1, ExtTreeMap.getElem?_insert_self, Option.some.injEq] at hinstalled
    rw [← hinstalled]
    exact ⟨rfl, rfl⟩
  · rw [hop] at hoperates
    exact absurd hoperates Bool.false_ne_true
  · rw [heq] at hoperates
    exfalso
    revert hoperates
    rcases transaction.operation with - | (commitment | op | op) <;> simp

end Ledger

namespace Installs

variable {reducer next : Reducer} {block : Block} {evidence : List ReferencedCommit}
  {before after : List Transaction} {transaction : Transaction} {nameId : NameId} {head : Head}

/-- **A head just accepted, at the end of its block.** -/
theorem head_eq (h : Installs reducer block evidence before transaction nameId head)
    (hindexed : reducer.toRecords.Indexed) (hinv : reducer.scan.Inv)
    (hblock : block.transactions = before ++ transaction :: after)
    (hunspent : Unspent head.futureNf after) {outcome : BlockOutcome}
    (happly : reducer.applyBlockDetailed block evidence = some (.ok outcome, next)) :
    head.producer.height = block.height ∧ head.terminalHeight = none ∧
      next.heads[nameId]? = some head := by
  obtain ⟨terminated, o, decision, terminated', o', hinside, hstep, hoperates, hhead⟩ := h
  obtain ⟨bound, hbound, hbefore⟩ := hinside.inv hindexed hinv hblock
  obtain ⟨supplied, hadmission, hledger, hnext⟩ := hinside.ledger_eq hindexed
  obtain ⟨terminated'', o'', hstep', ho''⟩ := hnext transaction
  rw [hstep, Option.some.injEq, Prod.mk.injEq, Prod.mk.injEq] at hstep'
  obtain ⟨rfl, -, rfl⟩ := hstep'
  rw [show o'.records.heads = o'.records.ledger.heads from rfl, ho''] at hhead
  obtain ⟨hheight, hindex⟩ := Ledger.producer_of_operates hoperates hhead
  have hactive := hbefore.installed_active hbound hhead hheight hindex
  -- the rest of the block leaves the head alone
  obtain ⟨s, hscan, -⟩ := Reducer.scan_of_apply hindexed happly
  obtain ⟨supplied', hnextHeight, -, hcheck, hsupply, hadvance, -⟩ :=
    ScanReducer.applyBlock_eq_ok hscan
  have hsame : supplied' = supplied := by
    have hsupply' := (admission_eq_ok hadmission).2.2.2
    exact Except.ok.inj (hsupply.symm.trans hsupply')
  have hlast : next.heads = ((reducer.ledger.startBlock reducer.rules.parameters block.height
      supplied).applyTransactions reducer.rules block.height block.transactions).2.2.heads := by
    rw [← hsame]
    exact congrArg (fun s ↦ s.ledger.heads) hadvance
  rw [hledger] at hhead
  rw [hblock] at hcheck
  refine ⟨hheight, hactive, ?_⟩
  rw [hlast, hblock]
  exact ((hsame ▸ hinv.startBlock hnextHeight hsupply)).applyTransactions_installed hcheck hhead
    hactive hunspent

end Installs

/-- **One block before the end of the lease.** -/
theorem Reducer.heads_of_unspent {reducer next : Reducer} {block : Block}
    {evidence : List ReferencedCommit} {outcome : BlockOutcome} {nameId : NameId} {head : Head}
    (hindexed : reducer.toRecords.Indexed) (hinv : reducer.scan.Inv)
    (happly : reducer.applyBlockDetailed block evidence = some (.ok outcome, next))
    (hhead : reducer.heads[nameId]? = some head) (hactive : head.terminalHeight = none)
    (hlease : block.height < head.expiryHeight)
    (hunspent : Unspent head.futureNf block.transactions) : next.heads[nameId]? = some head := by
  obtain ⟨s, hscan, -⟩ := scan_of_apply hindexed happly
  obtain ⟨supplied, hheight, -, hcheck, hsupply, hadvance, -⟩ := ScanReducer.applyBlock_eq_ok hscan
  have hstart : (reducer.ledger.startBlock reducer.rules.parameters block.height
      supplied).heads[nameId]? = some head :=
    Ledger.getElem?_startBlock_active supplied hhead hactive hlease
  rw [show next.heads = _ from congrArg (fun s ↦ s.ledger.heads) hadvance]
  exact (hinv.startBlock hheight hsupply).applyTransactions_unspent hcheck hstart hactive hunspent

/-! ### A run -/

/-- A block of the chain accepted the head at this height, and no later transaction of the chain
spends it. -/
def StandsSince (start : Reducer) (chain : List (Block × List ReferencedCommit)) (nameId : NameId)
    (head : Head) (height : U32) : Prop :=
  ∃ earlier block evidence later reducer before transaction after,
    chain = earlier ++ (block, evidence) :: later ∧ start.replay earlier = some reducer ∧
    block.height = height ∧ block.transactions = before ++ transaction :: after ∧
    Installs reducer block evidence before transaction nameId head ∧
    Unspent head.futureNf after ∧ ∀ entry ∈ later, Unspent head.futureNf entry.1.transactions

/-- **Blocks before the end of the lease.** The induction is on the blocks from the last one. -/
theorem Reducer.heads_of_replay_unspent {first last : Reducer} {nameId : NameId} {head : Head}
    {later : List (Block × List ReferencedCommit)} {tip : U32}
    (hindexed : first.toRecords.Indexed) (hinv : first.scan.Inv)
    (hfirst : ∃ tip, first.tipHeight = some tip) (hhead : first.heads[nameId]? = some head)
    (hactive : head.terminalHeight = none)
    (hunspent : ∀ entry ∈ later, Unspent head.futureNf entry.1.transactions)
    (hreplay : first.replay later = some last) (htip : last.tipHeight = some tip)
    (hlease : tip < head.expiryHeight) : last.heads[nameId]? = some head := by
  induction later using List.reverseRecOn generalizing last tip with
  | nil =>
    rw [← Option.some.inj hreplay]
    exact hhead
  | append_singleton later block ih =>
    rw [replay_append, Option.bind_eq_some_iff] at hreplay
    obtain ⟨previous, hprevious, haccept⟩ := hreplay
    obtain ⟨outcome, happly⟩ := accept_eq_some_iff.1 haccept
    have hindexed' := indexed_replay hindexed hprevious
    have hinv' := inv_replay hindexed hinv hprevious
    obtain ⟨tip₀, htip₀⟩ := hfirst
    obtain ⟨tip', htip', -⟩ := tip_le_of_replay hindexed hinv htip₀ hprevious
    obtain ⟨s, hscan, -⟩ := scan_of_apply hindexed' happly
    obtain ⟨supplied, hheight, -, -, -, hadvance, -⟩ := ScanReducer.applyBlock_eq_ok hscan
    -- the block is the tip, one above the previous tip
    have hblock : block.1.height = tip :=
      Option.some.inj ((congrArg ScanReducer.tipHeight hadvance).symm.trans htip)
    have hnext := (hinv'.atTip htip' hheight).1
    rw [hblock] at hnext
    have hearlier : tip' < head.expiryHeight := by
      rw [Fin.lt_def] at hlease ⊢
      omega
    have hkept := ih (fun entry hmem ↦ hunspent entry (List.mem_append_left _ hmem)) hprevious
      htip' hearlier
    exact heads_of_unspent hindexed' hinv' happly hkept hactive (hblock ▸ hlease)
      (hunspent block (List.mem_append_right _ (List.mem_singleton_self block)))

/-- **A head that stands is there until its lease ends.** -/
theorem heads_of_standsSince {parameters : Parameters} {parent : Bytes32} {verifier : ProofVerifier}
    {start last : Reducer} {chain : List (Block × List ReferencedCommit)} {nameId : NameId}
    {head : Head} {height : U32} (hnew : Reducer.new parameters parent verifier = .ok start)
    (hstands : StandsSince start chain nameId head height)
    (hreplay : start.replay chain = some last) :
    head.producer.height = height ∧ head.terminalHeight = none ∧
      ∃ tip, last.tipHeight = some tip ∧
        (tip.val < height.val + parameters.leaseBlocks.val → last.heads[nameId]? = some head) := by
  obtain ⟨earlier, block, evidence, later, reducer, before, transaction, after, rfl, hearlier, rfl,
    hblock, hinstalls, hafter, hlater⟩ := hstands
  have hindexed := Reducer.indexed_replay (Reducer.indexed_new hnew) hearlier
  have hinv := Reducer.inv_replay (Reducer.indexed_new hnew) (Reducer.inv_new hnew) hearlier
  rw [Reducer.replay_append_list, hearlier, Option.bind_some, Reducer.replay_cons_eq_some_iff]
    at hreplay
  obtain ⟨first, haccept, hrest⟩ := hreplay
  obtain ⟨outcome, happly⟩ := Reducer.accept_eq_some_iff.1 haccept
  obtain ⟨hheight, hactive, hhead⟩ := hinstalls.head_eq hindexed hinv hblock hafter happly
  have hreplayed : start.replay (earlier ++ [(block, evidence)]) = some first := by
    rw [Reducer.replay_append, hearlier]
    exact haccept
  have hindexed' := Reducer.indexed_replay (Reducer.indexed_new hnew) hreplayed
  have hinv' := Reducer.inv_replay (Reducer.indexed_new hnew) (Reducer.inv_new hnew) hreplayed
  obtain ⟨supplied, -, -, -, -, o, -, -, -, hclose, -⟩ :=
    Reducer.applyBlockDetailed_eq_ok_iff.1 happly
  have hfirst : first.tipHeight = some block.height := congrArg Reducer.tipHeight hclose
  obtain ⟨tip, htip, -⟩ := Reducer.tip_le_of_replay hindexed' hinv' hfirst hrest
  refine ⟨hheight, hactive, tip, htip, fun hlease ↦ ?_⟩
  -- the lease of the head runs from the height of its block
  have hparameters : first.rules.parameters = parameters := by
    rw [Reducer.rules_replay hreplayed]
    obtain ⟨valid, rfl⟩ := Reducer.new_eq_ok_iff.1 hnew
    rfl
  have hledger : first.ledger.Inv first.rules.parameters block.height 4294967296 := by
    rw [ScanReducer.Inv, show first.scan.tipHeight = some block.height from hfirst] at hinv'
    exact hinv'.2
  have hexpiry := Parameters.expiry_eq_ok_iff.1 (hledger.head nameId head hhead).expiry
  rw [hparameters, hheight] at hexpiry
  exact Reducer.heads_of_replay_unspent hindexed' hinv' ⟨_, hfirst⟩ hhead hactive hlater hrest htip
    (by rw [Fin.lt_def, hexpiry]; exact hlease)

/-! ### Renewal -/

/-- **Before the transactions that follow.** Inside an admitted block within the lease, a head at
the tip that the block has not spent so far is still there. -/
theorem InsideBlock.heads_of_unspent {reducer : Reducer} {block : Block}
    {evidence : List ReferencedCommit} {before after : List Transaction}
    {terminated : List Termination} {o : OpenBlock} {nameId : NameId} {head : Head}
    (h : InsideBlock reducer block evidence before terminated o)
    (hindexed : reducer.toRecords.Indexed) (hinv : reducer.scan.Inv)
    (hblock : block.transactions = before ++ after)
    (hhead : reducer.heads[nameId]? = some head) (hactive : head.terminalHeight = none)
    (hlease : block.height < head.expiryHeight) (hunspent : Unspent head.futureNf before) :
    o.records.heads[nameId]? = some head := by
  obtain ⟨supplied, hadmission, hledger, -⟩ := h.ledger_eq hindexed
  obtain ⟨hheight, -, hcheck, hsupply⟩ := admission_eq_ok hadmission
  rw [hblock] at hcheck
  have hstart : (reducer.ledger.startBlock reducer.rules.parameters block.height
      supplied).heads[nameId]? = some head :=
    Ledger.getElem?_startBlock_active supplied hhead hactive hlease
  rw [show o.records.heads = o.records.ledger.heads from rfl, hledger]
  exact Ledger.Inv.applyTransactions_unspent (checkTransactions_left hcheck)
    (hinv.startBlock hheight hsupply) hstart hactive hunspent

/-- **An owner can renew before the lease ends.** Let a head stand on the surviving chain of a run
since height `p`. In an admitted block one epoch later, as long as no transaction of it has spent
the head, the head is stored and active, the height is in the name's window of the next epoch, and a
REFRESH is accepted that names the head's producer, designates an action spending its future
nullifier and has a proof of the rebuilt statement. -/
theorem renewal_accepted {parameters : Parameters} {parent : Bytes32} {verifier : ProofVerifier}
    {start reducer : Reducer} {calls : List Call} {replies : List Reply}
    (hnew : Reducer.new parameters parent verifier = .ok start)
    (hrun : start.run calls = some (replies, reducer)) {nameId : NameId} {head : Head} {p : U32}
    (hstands : StandsSince start (survivors calls replies) nameId head p)
    (hfits : p.val + parameters.epochBlocks.val + parameters.leaseBlocks.val ≤ 4294967295)
    {block : Block} {evidence : List ReferencedCommit} {outcome : BlockOutcome} {next : Reducer}
    (happly : reducer.applyBlockDetailed block evidence = some (.ok outcome, next))
    (hheight : block.height.val = p.val + parameters.epochBlocks.val)
    {before after : List Transaction} (hblock : block.transactions = before ++ after)
    (hunspent : Unspent head.futureNf before) :
    ∃ terminated o epoch, InsideBlock reducer block evidence before terminated o ∧
      o.records.heads[nameId]? = some head ∧
      head.lifecycle block.height parameters = .active ∧
      parameters.epoch block.height = .ok epoch ∧ epoch.val = head.producerEpoch.val + 1 ∧
      parameters.acceptsOperation nameId block.height = true ∧
      ∀ transaction rest op action, after = transaction :: rest →
        transaction.operation = some (.refresh op) → op.name.id = .ok nameId →
        op.predecessor = head.producer →
        transaction.actions[op.actionIndex.val]? = some action →
        action.nullifier = head.futureNf →
        verifier.verifyRefresh
          { deploymentId := parameters.deploymentId
            nameId := nameId
            predecessorRef := head.producer
            predecessorCommitment := head.commitment
            predecessorFutureNf := head.futureNf
            predecessorEpoch := head.producerEpoch
            inclusionEpoch := epoch
            ua := op.ua
            actionIndex := op.actionIndex
            actionNullifier := action.nullifier
            actionCommitment := action.commitment
            successorFutureNf := op.successorFutureNf } op.proof = true →
        ∃ terminated' o', o.applyTransactionDetailed reducer.rules block.height transaction
          terminated = some (⟨some .refresh, .refreshAccept⟩, terminated', o') := by
  have hreached : FromNew parameters parent verifier reducer := ⟨start, calls, replies, hnew, hrun⟩
  have hindexed := hreached.indexed
  have hsurvives := Survives.of_run hnew hrun
  obtain ⟨hvalid, hstart⟩ := Reducer.new_eq_ok_iff.1 hnew
  have hrules : reducer.rules = ⟨parameters, verifier, hvalid⟩ := by
    rw [hsurvives.rules, hstart]
  have hlong := hvalid.epoch_lt
  rw [Fin.lt_def] at hlong
  obtain ⟨fresh, hreplay, hreducer, -⟩ := hsurvives
  obtain ⟨hproducer, hactive, tip, htip, hhead⟩ := heads_of_standsSince hnew hstands hreplay
  rw [show fresh.tipHeight = reducer.tipHeight from
    (congrArg Reducer.tipHeight hreducer).symm] at htip
  rw [show fresh.heads = reducer.heads from (congrArg (fun r ↦ r.heads) hreducer).symm] at hhead
  -- the tip is the height before this block, within the lease
  obtain ⟨supplied, -, -, -, -, -, hadmission, -⟩ := Reducer.applyBlockDetailed_eq_ok_iff.1 happly
  obtain ⟨hnext, -, hcheck, -⟩ := admission_eq_ok hadmission
  obtain ⟨htipval, hledger⟩ := hreached.inv.atTip htip hnext
  have hhead := hhead (by omega)
  have hheadInv := hledger.head nameId head hhead
  rw [show reducer.scan.rules.parameters = parameters from congrArg Rules.parameters hrules]
    at hheadInv
  have hexpiry := Parameters.expiry_eq_ok_iff.1 hheadInv.expiry
  have hlease : block.height < head.expiryHeight := by
    rw [Fin.lt_def, hexpiry, hproducer]
    omega
  obtain ⟨terminated, o, hinside⟩ := InsideBlock.of_admission hindexed hadmission before
  have hkept := hinside.heads_of_unspent hindexed hreached.inv hblock hhead hactive hlease hunspent
  have hlifecycle : head.lifecycle block.height parameters = .active := by
    rw [Head.lifecycle, Head.isClaimable, Head.terminalAt, hactive, Option.none_or,
      if_neg (not_le.2 hlease)]
  rw [← hproducer] at hheight hfits
  obtain ⟨epoch, hepoch, hepochval⟩ := Parameters.epoch_next hvalid hheadInv.epoch hheight
  have haccepts := Parameters.acceptsOperation_next hvalid hheadInv.window hheight (by omega)
  refine ⟨terminated, o, epoch, hinside, hkept, hlifecycle, hepoch, hepochval, haccepts, ?_⟩
  intro transaction rest op action hafter hop hname hpredecessor haction hspends hproof
  obtain ⟨-, -, -, hstep⟩ := hinside.ledger_eq hindexed
  obtain ⟨terminated', o', hdetailed, -⟩ := hstep transaction
  -- the action at a position carries its index, by the admission checks of the block
  have hindex : action.actionIndex = op.actionIndex := by
    rw [hblock, hafter] at hcheck
    exact actionIndex_of_canonicalActions (canonicalActions_of_checkTransactions hcheck) haction
  obtain ⟨expiry, hexpires⟩ := Parameters.exists_expiry_iff.2
    (show block.height.val + parameters.leaseBlocks.val ≤ 4294967295 by omega)
  have hlater : head.producerEpoch < epoch := by
    rw [Fin.lt_def]
    omega
  rw [hrules] at hdetailed ⊢
  have hrefreshed : o.records.ledger.refreshed ⟨parameters, verifier, hvalid⟩ block.height
      transaction op = .ok (nameId, transaction.successor block.height op.name op.ua op.actionIndex
        action.commitment op.successorFutureNf epoch expiry) :=
    Ledger.refreshed_of_checks hname hkept hepoch hlifecycle hpredecessor hlater haccepts haction
      hindex hspends hproof hexpires
  have hdecision : (o.records.ledger.applyTransaction ⟨parameters, verifier, hvalid⟩ block.height
      transaction).1 = ⟨some .refresh, .refreshAccept⟩ := by
    rw [Ledger.applyTransaction, Ledger.applyOperation, hop]
    dsimp only
    rw [hrefreshed]
  exact ⟨terminated', o', by rw [hdetailed, hdecision]⟩

end Renewal

/-! ### A REFRESH of `alice`

The REVEAL at height one, two empty blocks, and a REFRESH one epoch after the REVEAL. -/

namespace Sample

/-- The chain up to the height before the REFRESH. -/
def renewalCalls : List Call :=
  [.applyBlock block0 [], .applyBlock block1 [], .applyBlock (emptyBlock 2 3 2) [],
    .applyBlock (emptyBlock 3 4 3) []]

/-- The REFRESH of `alice`: its action spends the future nullifier of the REVEAL. -/
def refreshTransaction : Transaction :=
  ⟨0, Vector.replicate 32 15, [⟨0, field 7, field 8⟩], some (.refresh
    { name := alice
      predecessor := ⟨1, 0, Vector.replicate 32 11, 0⟩
      ua := ua
      actionIndex := 0
      successorFutureNf := field 9
      proof := [1] })⟩

/-- The block with the REFRESH. -/
def renewalBlock : Block :=
  { emptyBlock 4 5 4 with transactions := [refreshTransaction] }

/-- The REVEAL of `alice` is accepted, and its head has the nullifier that the REFRESH spends. -/
theorem exists_installs : ∃ reducer nameId head, start.accept (block0, []) = some reducer ∧
    alice.id = .ok nameId ∧ Installs reducer block1 [] [] revealTransaction nameId head ∧
    head.producer = ⟨1, 0, Vector.replicate 32 11, 0⟩ ∧ head.futureNf = field 7 := by
  have hevaluated : ((start.accept (block0, [])).bind fun reducer ↦
      (admission parameters reducer.nextHeight reducer.previousHash reducer.commits block1
        []).toOption.bind fun supplied ↦ (reducer.startBlock 1 supplied).bind fun started ↦
          (started.2.applyTransactionDetailed reducer.rules 1 revealTransaction []).bind fun step ↦
            alice.id.toOption.bind fun nameId ↦ step.2.2.records.heads[nameId]?.map fun head ↦
              (revealTransaction.operates step.1 nameId, head.producer, head.futureNf)) =
      some (true, ⟨1, 0, Vector.replicate 32 11, 0⟩, field 7) := by decide +kernel
  simp only [Option.bind_eq_some_iff, Option.map_eq_some_iff, Prod.mk.injEq,
    Except.toOption_eq_some_iff] at hevaluated
  obtain ⟨reducer, haccept, supplied, hadmission, ⟨compacted, started⟩, hstart,
    ⟨decision, terminated, o⟩, hstep, nameId, hname, head, hhead, hoperates, hproducer,
    hnullifier⟩ := hevaluated
  have hrules : reducer.rules = start.rules := by
    have hreplay : start.replay [(block0, [])] = some reducer := by
      rw [Reducer.replay_cons_eq_some_iff]
      exact ⟨reducer, haccept, rfl⟩
    exact Reducer.rules_replay hreplay
  rw [show parameters = reducer.rules.parameters by rw [hrules]; rfl] at hadmission
  exact ⟨reducer, nameId, head, haccept, hname,
    ⟨[], started, decision, terminated, o,
      ⟨supplied, compacted, started, [], hadmission, hstart, rfl⟩,
      hstep, hoperates, hhead⟩, hproducer, hnullifier⟩

theorem renewal_accepted_alice : ∃ replies reducer nameId head terminated o terminated' o',
    start.run renewalCalls = some (replies, reducer) ∧
    StandsSince start (survivors renewalCalls replies) nameId head 1 ∧
    InsideBlock reducer renewalBlock [] [] terminated o ∧
    o.records.heads[nameId]? = some head ∧
    o.applyTransactionDetailed reducer.rules renewalBlock.height refreshTransaction terminated =
      some (⟨some .refresh, .refreshAccept⟩, terminated', o') := by
  have hevaluated : (start.run renewalCalls).bind (fun result ↦
      (result.2.accept (renewalBlock, [])).map fun _ ↦ survivors renewalCalls result.1) =
      some [(block0, []), (block1, []), (emptyBlock 2 3 2, []), (emptyBlock 3 4 3, [])] := by
    decide +kernel
  simp only [Option.bind_eq_some_iff, Option.map_eq_some_iff] at hevaluated
  obtain ⟨⟨replies, reducer⟩, hrun, next, haccept, hsurvivors⟩ := hevaluated
  obtain ⟨outcome, happly⟩ := Reducer.accept_eq_some_iff.1 haccept
  obtain ⟨revealing, nameId, head, hfirst, hname, hinstalls, hproducer, hnullifier⟩ :=
    exists_installs
  have hearlier : start.replay [(block0, [])] = some revealing :=
    Reducer.replay_cons_eq_some_iff.2 ⟨revealing, hfirst, rfl⟩
  have hstands : StandsSince start (survivors renewalCalls replies) nameId head 1 := by
    refine ⟨[(block0, [])], block1, [], [(emptyBlock 2 3 2, []), (emptyBlock 3 4 3, [])], revealing,
      [], revealTransaction, [], hsurvivors, hearlier, rfl, rfl, hinstalls, ?_, ?_⟩
    · exact fun transaction hmem ↦ absurd hmem List.not_mem_nil
    · intro entry hentry transaction hmem
      -- the two blocks in between have no transactions
      simp only [List.mem_cons, List.not_mem_nil, or_false] at hentry
      rcases hentry with rfl | rfl
      · exact absurd hmem List.not_mem_nil
      · exact absurd hmem List.not_mem_nil
  obtain ⟨terminated, o, epoch, hinside, hhead, -, -, -, -, haccepted⟩ := renewal_accepted
    new_eq_start hrun hstands (by decide) happly (by decide) (List.nil_append _).symm
    fun transaction hmem ↦ absurd hmem List.not_mem_nil
  obtain ⟨terminated', o', hstep⟩ := haccepted refreshTransaction [] _ ⟨0, field 7, field 8⟩ rfl rfl
    hname hproducer.symm rfl hnullifier.symm rfl
  exact ⟨replies, reducer, nameId, head, terminated, o, terminated', o', hrun, hstands, hinside,
    hhead, hstep⟩

end Sample

end CoppiceNames
