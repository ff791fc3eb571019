import CoppiceNames.Library.Checked
import CoppiceNames.Reducer.Effects

/-!
# Lineages and the quarantine between them

A lineage is a REVEAL followed by REFRESHes, each of the head before it. Between two lineages of a
name lies a cooldown in which the name does not resolve to an address.

What happens in a run is a set of decided transactions (`Decided`); the steps of a lineage are
stated over such a set. Inside a block the argument follows the head of one name through the
transactions, in two situations: an active head is refreshed, spent or left alone (`Advances`), and
a name whose cooldown is over has no head or one whose lineage began since (`Since`). Over a run
three phases follow each other: the lineage goes on, it has ended and cools down, the cooldown is
over (`Phase`).
-/

open Std hiding not_le not_lt

namespace CoppiceNames

section Lineage

variable [Primitives]

/-! ### Steps of a lineage -/

/-- Decided transactions, with the height of their block. -/
abbrev Decisions := U32 → Transaction → OperationDecision → Prop

/-- **An accepted REFRESH**: it names the producer of the head, its designated action spends the
head's future nullifier, it lies in a later epoch, and it installs the successor. -/
structure RefreshStep (D : Decisions) (parameters : Parameters) (nameId : NameId)
    (head successor : Head) : Prop where
  intro ::
  step : ∃ height transaction op action expiry,
    D height transaction ⟨some .refresh, .refreshAccept⟩ ∧
    transaction.operation = some (.refresh op) ∧ op.name.id = .ok nameId ∧
    op.predecessor = head.producer ∧
    transaction.actions[op.actionIndex.val]? = some action ∧
    action.actionIndex = op.actionIndex ∧ action.nullifier = head.futureNf ∧
    parameters.epoch height = .ok successor.producerEpoch ∧
    head.producerEpoch < successor.producerEpoch ∧
    successor = transaction.successor height op.name op.ua op.actionIndex action.commitment
      op.successorFutureNf successor.producerEpoch expiry

/-- An accepted REVEAL at a height, and the head it installs. -/
structure RevealStep (D : Decisions) (nameId : NameId) (height : U32) (head : Head) : Prop where
  intro ::
  step : ∃ transaction op action epoch expiry,
    D height transaction ⟨some .reveal, .revealAccept⟩ ∧
    transaction.operation = some (.reveal op) ∧ op.name.id = .ok nameId ∧
    transaction.actions[op.actionIndex.val]? = some action ∧
    head = transaction.successor height op.name op.ua op.actionIndex action.commitment
      op.successorFutureNf epoch expiry

/-- A chain of accepted REFRESHes. -/
def RefreshChain (D : Decisions) (parameters : Parameters) (nameId : NameId) : Head → Head → Prop :=
  Relation.ReflTransGen (RefreshStep D parameters nameId)

/-- A head ends at a height: its lease is over, or a transaction spends its bond. -/
def EndsAt (D : Decisions) (height : U32) (head : Head) : Prop :=
  height = head.expiryHeight ∨ ∃ transaction decision, D height transaction decision ∧
    ∃ action ∈ transaction.actions, action.nullifier = head.futureNf

/-- A head of an ended lineage. -/
def Head.endedAt (head : Head) (height : U32) : Head :=
  { head with terminalHeight := some height }

/-- The head of the name, if any, belongs to a lineage that a REVEAL at or above a height began. -/
def Since (D : Decisions) (parameters : Parameters) (nameId : NameId) (bound : ℕ)
    (current : Option Head) : Prop :=
  ∀ head, current = some head → ∃ height revealed last, bound ≤ height.val ∧
    RevealStep D nameId height revealed ∧ RefreshChain D parameters nameId revealed last ∧
    (head = last ∨ ∃ terminal, head = last.endedAt terminal)

/-- The lineage of a head goes on, or it has ended at this height. -/
def Advances (D : Decisions) (parameters : Parameters) (nameId : NameId) (height : U32)
    (head : Head) (current : Option Head) : Prop :=
  ∃ last, RefreshChain D parameters nameId head last ∧ last.terminalHeight = none ∧
    (current = some last ∨ EndsAt D height last ∧ current = some (last.endedAt height))

section Mono

variable {D D' : Decisions} {parameters : Parameters} {nameId : NameId}

theorem RefreshChain.mono (hsub : ∀ h t d, D h t d → D' h t d) {head last : Head}
    (h : RefreshChain D parameters nameId head last) :
    RefreshChain D' parameters nameId head last := by
  refine Relation.ReflTransGen.mono (fun a b hstep ↦ ?_) _ _ h
  obtain ⟨height, transaction, op, action, expiry, hdecided, hrest⟩ := hstep.step
  exact ⟨height, transaction, op, action, expiry, hsub _ _ _ hdecided, hrest⟩

theorem RevealStep.mono (hsub : ∀ h t d, D h t d → D' h t d) {height : U32} {head : Head}
    (h : RevealStep D nameId height head) : RevealStep D' nameId height head := by
  obtain ⟨transaction, op, action, epoch, expiry, hdecided, hrest⟩ := h.step
  exact ⟨transaction, op, action, epoch, expiry, hsub _ _ _ hdecided, hrest⟩

theorem EndsAt.mono (hsub : ∀ h t d, D h t d → D' h t d) {height : U32} {head : Head}
    (h : EndsAt D height head) : EndsAt D' height head := by
  rcases h with hexpired | ⟨transaction, decision, hdecided, hspent⟩
  · exact Or.inl hexpired
  · exact Or.inr ⟨transaction, decision, hsub _ _ _ hdecided, hspent⟩

theorem Since.mono (hsub : ∀ h t d, D h t d → D' h t d) {bound : ℕ} {current : Option Head}
    (h : Since D parameters nameId bound current) : Since D' parameters nameId bound current := by
  intro head hhead
  obtain ⟨height, revealed, last, hle, hreveal, hchain, hlast⟩ := h head hhead
  exact ⟨height, revealed, last, hle, hreveal.mono hsub, hchain.mono hsub, hlast⟩

end Mono

/-! ### One transaction -/

namespace Ledger

variable {ledger : Ledger} {rules : Rules} {height : U32} {transaction : Transaction} {bound : ℕ}
  {nameId : NameId} {head : Head} {D : Decisions}

/-- A terminal head stays as it is. -/
theorem Inv.applyTransaction_terminal (h : ledger.Inv rules.parameters height bound)
    (hbound : bound ≤ transaction.txIndex.val) (hhead : ledger.heads[nameId]? = some head)
    (hterminal : head.terminalHeight ≠ none) :
    (ledger.applyTransaction rules height transaction).2.2.heads[nameId]? = some head :=
  (h.headEffect hbound hhead).terminal hterminal

/-- **An active head** is refreshed, spent or left alone. -/
theorem Inv.applyTransaction_active (h : ledger.Inv rules.parameters height bound)
    (hbound : bound ≤ transaction.txIndex.val) (hhead : ledger.heads[nameId]? = some head)
    (hactive : head.terminalHeight = none)
    (hdecided : D height transaction (ledger.applyTransaction rules height transaction).1) :
    Advances D rules.parameters nameId height head
      (ledger.applyTransaction rules height transaction).2.2.heads[nameId]? := by
  have heffect := h.headEffect hbound hhead
  by_cases hrefreshes : ∃ op, Refreshes transaction
      (ledger.applyTransaction rules height transaction).1 nameId op
  · obtain ⟨op, hop, haccepted, hname⟩ := hrefreshes
    obtain ⟨hpredecessor, successor, ⟨action, epoch, expiry, haction, hepoch, -, rfl⟩, hafter⟩ :=
      heffect.refreshed hactive op ⟨hop, haccepted, hname⟩
    -- the decision is an accepted REFRESH, so the checks of `apply_refresh` passed
    rcases applyOperation_cases ledger rules height transaction with
      ⟨op', id, installed, hop', -⟩ | ⟨op', id, installed, hop', hresult, heq⟩ |
        ⟨commitment, hop', -⟩ | ⟨clause, heq⟩
    · rw [hop] at hop'
      exact absurd hop' (by simp)
    · rw [hop, Option.some.injEq, Operation.refresh.injEq] at hop'
      subst hop'
      obtain ⟨hname', predecessor, hpred, -, -, -, action', epoch', -, haction', hindex, hspends,
        hepoch', hlater, -⟩ := refreshed_eq_ok hresult
      rw [hname, Except.ok.injEq] at hname'
      rw [← hname', hhead, Option.some.injEq] at hpred
      rw [haction, Option.some.injEq] at haction'
      rw [hepoch, Except.ok.injEq] at hepoch'
      subst hpred haction' hepoch'
      rw [Ledger.applyTransaction, heq] at hdecided
      have hstep : RefreshStep D rules.parameters nameId head (transaction.successor height op.name
          op.ua op.actionIndex action.commitment op.successorFutureNf epoch expiry) :=
        ⟨height, transaction, op, action, expiry, hdecided, hop, hname, hpredecessor, haction,
          hindex, hspends, hepoch, hlater, rfl⟩
      exact ⟨_, Relation.ReflTransGen.single hstep, rfl, Or.inl hafter⟩
    · rw [hop] at hop'
      exact absurd hop' (by simp)
    · rw [Ledger.applyTransaction, heq] at haccepted
      exact absurd haccepted (by simp)
  · by_cases hspent : ∃ action ∈ transaction.actions, action.nullifier = head.futureNf
    · exact ⟨head, .refl, hactive, Or.inr ⟨Or.inr ⟨transaction, _, hdecided, hspent⟩,
        heffect.spent hactive hrefreshes hspent⟩⟩
    · exact ⟨head, .refl, hactive, Or.inl (heffect.unchanged hactive hrefreshes hspent)⟩

/-- **A name without a head** gets one by an accepted REVEAL only. -/
theorem applyTransaction_none (hnone : ledger.heads[nameId]? = none)
    (hdecided : D height transaction (ledger.applyTransaction rules height transaction).1)
    (parameters : Parameters) :
    Since D parameters nameId height.val
      (ledger.applyTransaction rules height transaction).2.2.heads[nameId]? := by
  intro head hhead
  rw [Ledger.applyTransaction] at hhead hdecided
  dsimp only at hhead hdecided
  rw [getElem?_terminate, Option.map_eq_some_iff] at hhead
  obtain ⟨current, hcurrent, rfl⟩ := hhead
  -- nothing was current before, so the spend pass leaves the new head alone
  have hunspent : ledger.afterSpend height transaction nameId current = current := by
    rw [afterSpend, spent, hnone]
    simp
  rw [hunspent]
  rcases applyOperation_cases ledger rules height transaction with
    ⟨op, id, installed, hop, hresult, heq⟩ | ⟨op, id, installed, hop, hresult, heq⟩ |
      ⟨commitment, -, heq⟩ | ⟨clause, heq⟩
  · obtain ⟨hname, -, -, -, -, action, epoch, expiry, haction, -, -, rfl⟩ := revealed_eq_ok hresult
    rw [heq, OrderedMap.getElem?_insert_eq_some_iff, hnone] at hcurrent
    rcases hcurrent with ⟨rfl, hinstalled⟩ | ⟨-, hold⟩
    · rw [heq] at hdecided
      exact ⟨height, current, current, le_rfl, ⟨transaction, op, action, epoch, expiry, hdecided,
        hop, hname, haction, hinstalled.symm⟩, .refl, Or.inl rfl⟩
    · exact absurd hold (by simp)
  · obtain ⟨-, predecessor, hpred, -⟩ := refreshed_eq_ok hresult
    rw [heq, OrderedMap.getElem?_insert_eq_some_iff, hnone] at hcurrent
    rcases hcurrent with ⟨rfl, -⟩ | ⟨-, hold⟩
    · rw [hnone] at hpred
      exact absurd hpred (by simp)
    · exact absurd hold (by simp)
  · rw [heq, hnone] at hcurrent
    exact absurd hcurrent (by simp)
  · rw [heq, hnone] at hcurrent
    exact absurd hcurrent (by simp)

/-- A head of a lineage since some height stays in one. -/
theorem Inv.applyTransaction_since (h : ledger.Inv rules.parameters height bound)
    (hbound : bound ≤ transaction.txIndex.val)
    (hdecided : D height transaction (ledger.applyTransaction rules height transaction).1)
    {since : ℕ} (hle : since ≤ height.val)
    (hsince : Since D rules.parameters nameId since ledger.heads[nameId]?) :
    Since D rules.parameters nameId since
      (ledger.applyTransaction rules height transaction).2.2.heads[nameId]? := by
  rcases hcurrent : ledger.heads[nameId]? with - | head
  · intro head hhead
    obtain ⟨v, revealed, last, hv, hrest⟩ :=
      applyTransaction_none hcurrent hdecided rules.parameters head hhead
    exact ⟨v, revealed, last, hle.trans hv, hrest⟩
  · obtain ⟨v, revealed, last, hv, hreveal, hchain, hlast⟩ := hsince head hcurrent
    by_cases hactive : head.terminalHeight = none
    · have hlast' : head = last := by
        rcases hlast with hlast | ⟨terminal, hlast⟩
        · exact hlast
        · rw [hlast] at hactive
          exact absurd hactive (by simp [Head.endedAt])
      subst hlast'
      obtain ⟨next, hnext, -, hafter⟩ := h.applyTransaction_active hbound hcurrent hactive hdecided
      have hwhole := Relation.ReflTransGen.trans hchain hnext
      intro current hcurrent'
      refine ⟨v, revealed, next, hv, hreveal, hwhole, ?_⟩
      rcases hafter with hafter | ⟨-, hafter⟩
      · rw [hafter] at hcurrent'
        exact Or.inl (Option.some.inj hcurrent').symm
      · rw [hafter] at hcurrent'
        exact Or.inr ⟨height, (Option.some.inj hcurrent').symm⟩
    · intro current hcurrent'
      rw [h.applyTransaction_terminal hbound hcurrent hactive] at hcurrent'
      rw [← Option.some.inj hcurrent']
      exact ⟨v, revealed, last, hv, hreveal, hchain, hlast⟩

/-! ### The transactions of a block -/

/-- All transactions are decided as the ledger decides them. -/
def DecidedAll (D : Decisions) (height : U32) (transactions : List Transaction)
    (decisions : List OperationDecision) : Prop :=
  ∀ (i : ℕ) transaction decision, transactions[i]? = some transaction →
    decisions[i]? = some decision → D height transaction decision

theorem DecidedAll.cons {transaction : Transaction} {transactions : List Transaction}
    {decision : OperationDecision} {decisions : List OperationDecision}
    (h : DecidedAll D height (transaction :: transactions) (decision :: decisions)) :
    D height transaction decision ∧ DecidedAll D height transactions decisions :=
  ⟨h 0 transaction decision rfl rfl, fun i t d ht hd ↦ h (i + 1) t d ht hd⟩

variable {previous : Option U32} {transactions : List Transaction}

theorem Inv.applyTransactions_terminal (hcheck : checkTransactions previous transactions = .ok ())
    (h : ledger.Inv rules.parameters height (nextIndex previous))
    (hhead : ledger.heads[nameId]? = some head) (hterminal : head.terminalHeight ≠ none) :
    (ledger.applyTransactions rules height transactions).2.2.heads[nameId]? = some head := by
  induction transactions generalizing ledger previous with
  | nil => exact hhead
  | cons transaction rest ih =>
    obtain ⟨hbound, -, hrest⟩ := checkTransactions_cons hcheck
    exact ih hrest (h.applyTransaction hbound) (h.applyTransaction_terminal hbound hhead hterminal)

theorem Inv.applyTransactions_active (hcheck : checkTransactions previous transactions = .ok ())
    (h : ledger.Inv rules.parameters height (nextIndex previous))
    (hhead : ledger.heads[nameId]? = some head) (hactive : head.terminalHeight = none)
    (hdecided : DecidedAll D height transactions
      (ledger.applyTransactions rules height transactions).1) :
    Advances D rules.parameters nameId height head
      (ledger.applyTransactions rules height transactions).2.2.heads[nameId]? := by
  induction transactions generalizing ledger previous head with
  | nil => exact ⟨head, .refl, hactive, Or.inl hhead⟩
  | cons transaction rest ih =>
    obtain ⟨hbound, -, hrest⟩ := checkTransactions_cons hcheck
    obtain ⟨hfirst, hdecided'⟩ := hdecided.cons
    have hnext := h.applyTransaction hbound
    obtain ⟨last, hchain, hlast, hafter | ⟨hends, hafter⟩⟩ :=
      h.applyTransaction_active hbound hhead hactive hfirst
    · obtain ⟨last', hchain', hrest'⟩ := ih hrest hnext hafter hlast hdecided'
      exact ⟨last', hchain.trans hchain', hrest'⟩
    · -- an ended head stays as it is for the rest of the block
      have hkept := Inv.applyTransactions_terminal hrest hnext hafter (by simp [Head.endedAt])
      exact ⟨last, hchain, hlast, Or.inr ⟨hends, hkept⟩⟩

theorem Inv.applyTransactions_since (hcheck : checkTransactions previous transactions = .ok ())
    (h : ledger.Inv rules.parameters height (nextIndex previous)) {since : ℕ}
    (hle : since ≤ height.val)
    (hsince : Since D rules.parameters nameId since ledger.heads[nameId]?)
    (hdecided : DecidedAll D height transactions
      (ledger.applyTransactions rules height transactions).1) :
    Since D rules.parameters nameId since
      (ledger.applyTransactions rules height transactions).2.2.heads[nameId]? := by
  induction transactions generalizing ledger previous with
  | nil => exact hsince
  | cons transaction rest ih =>
    obtain ⟨hbound, -, hrest⟩ := checkTransactions_cons hcheck
    obtain ⟨hfirst, hdecided'⟩ := hdecided.cons
    exact ih hrest (h.applyTransaction hbound)
      (h.applyTransaction_since hbound hfirst hle hsince) hdecided'

end Ledger

/-! ### One block -/

namespace ScanReducer

variable {s s' : ScanReducer} {block : Block} {evidence : List ReferencedCommit}
  {outcome : ScanOutcome} {nameId : NameId} {head : Head} {D : Decisions} {tip : U32}

/-- The height after the tip, and the invariant there. -/
theorem Inv.atTip (h : s.Inv) (htip : s.tipHeight = some tip)
    (hheight : some block.height = s.nextHeight) :
    block.height.val = tip.val + 1 ∧ s.ledger.Inv s.rules.parameters tip 4294967296 := by
  rw [ScanReducer.Inv, htip] at h
  rw [h.1] at hheight
  exact ⟨U32.checkedAdd_eq_some_iff.1 hheight.symm, h.2⟩

/-- **An active head over a block**: its lineage goes on, or ends at the height of the block. -/
theorem Inv.block_active (h : s.Inv) (htip : s.tipHeight = some tip)
    (happly : s.applyBlock block evidence = .ok (outcome, s'))
    (hhead : s.ledger.heads[nameId]? = some head) (hactive : head.terminalHeight = none)
    (hdecided : Ledger.DecidedAll D block.height block.transactions outcome.decisions) :
    Advances D s.rules.parameters nameId block.height head s'.ledger.heads[nameId]? := by
  obtain ⟨supplied, hheight, -, hcheck, hsupply, rfl, hdecisions, -⟩ := applyBlock_eq_ok happly
  obtain ⟨hnext, hledger⟩ := h.atTip htip hheight
  have hstarted := h.startBlock hheight hsupply
  have hlive := (hledger.head nameId head hhead).active hactive
  rw [hdecisions] at hdecided
  have hstart := Ledger.getElem?_startBlock s.ledger s.rules.parameters block.height supplied nameId
  rw [hhead, Option.map_some] at hstart
  by_cases hexpired : head.expiryHeight ≤ block.height
  · -- the lease ends exactly here
    have hexpiry : head.expiryHeight = block.height := by grind
    have hended : head.expire block.height = head.endedAt block.height := by
      rw [Head.expire, if_pos ⟨hactive, hexpired⟩, Head.endedAt, ← hexpiry]
    have hkept : (head.endedAt block.height).released s.rules.parameters block.height = false := by
      have hpos := s.rules.valid.cooldown_pos
      simp only [Head.released, Head.endedAt, Option.any_some, decide_eq_false_iff_not]
      omega
    rw [hended, Option.filter_some_pos (by simp [hkept])] at hstart
    refine ⟨head, .refl, hactive, Or.inr ⟨Or.inl hexpiry.symm, ?_⟩⟩
    exact hstarted.applyTransactions_terminal hcheck hstart (by simp [Head.endedAt])
  · have hsame : head.expire block.height = head := by
      rw [Head.expire, if_neg fun hboth ↦ hexpired hboth.2]
    have hkept : head.released s.rules.parameters block.height = false := by
      rw [Head.released, hactive]
      rfl
    rw [hsame, Option.filter_some_pos (by simp [hkept])] at hstart
    exact hstarted.applyTransactions_active hcheck hstart hactive hdecided

/-- A terminal head stays until its cooldown is over. -/
theorem Inv.block_cooldown (h : s.Inv) (happly : s.applyBlock block evidence = .ok (outcome, s'))
    (hhead : s.ledger.heads[nameId]? = some head) {terminal : U32}
    (hterminal : head.terminalHeight = some terminal)
    (hlt : block.height.val < terminal.val + s.rules.parameters.cooldownBlocks.val) :
    s'.ledger.heads[nameId]? = some head := by
  obtain ⟨supplied, hheight, -, hcheck, hsupply, rfl, -, -⟩ := applyBlock_eq_ok happly
  have hstart := Ledger.getElem?_startBlock s.ledger s.rules.parameters block.height supplied nameId
  have hsame : head.expire block.height = head := by
    rw [Head.expire, if_neg]
    rintro ⟨hnone, -⟩
    rw [hterminal] at hnone
    exact absurd hnone (by simp)
  have hkept : head.released s.rules.parameters block.height = false := by
    rw [Head.released, hterminal, Option.any_some, decide_eq_false_iff_not]
    omega
  rw [hhead, Option.map_some, hsame, Option.filter_some_pos (by simp [hkept])] at hstart
  exact (h.startBlock hheight hsupply).applyTransactions_terminal hcheck hstart
    (by rw [hterminal]; simp)

/-- A head of a lineage since some height stays in one over a block. -/
theorem Inv.block_since (h : s.Inv) (happly : s.applyBlock block evidence = .ok (outcome, s'))
    {since : ℕ} (hle : since ≤ block.height.val)
    (hsince : Since D s.rules.parameters nameId since s.ledger.heads[nameId]? ∨
      ∃ head terminal, s.ledger.heads[nameId]? = some head ∧
        head.terminalHeight = some terminal ∧
        terminal.val + s.rules.parameters.cooldownBlocks.val ≤ block.height.val)
    (hdecided : Ledger.DecidedAll D block.height block.transactions outcome.decisions) :
    Since D s.rules.parameters nameId since s'.ledger.heads[nameId]? := by
  obtain ⟨supplied, hheight, -, hcheck, hsupply, rfl, hdecisions, -⟩ := applyBlock_eq_ok happly
  rw [hdecisions] at hdecided
  refine (h.startBlock hheight hsupply).applyTransactions_since hcheck hle ?_ hdecided
  intro started hstarted
  obtain ⟨previous, hprevious, rfl, hkept⟩ := Ledger.of_getElem?_startBlock hstarted
  rcases hsince with hsince | ⟨head, terminal, hhead, hterminal, hover⟩
  · obtain ⟨v, revealed, last, hv, hreveal, hchain, hlast⟩ := hsince previous hprevious
    refine ⟨v, revealed, last, hv, hreveal, hchain, ?_⟩
    rw [Head.expire]
    split
    · rename_i hexpired
      rcases hlast with rfl | ⟨terminal, rfl⟩
      · exact Or.inr ⟨previous.expiryHeight, rfl⟩
      · exact absurd hexpired.1 (by simp [Head.endedAt])
    · exact hlast
  · -- the head is released at the start of the block
    rw [hhead, Option.some.injEq] at hprevious
    subst hprevious
    have hsame : head.expire block.height = head := by
      rw [Head.expire, if_neg]
      rintro ⟨hnone, -⟩
      rw [hterminal] at hnone
      exact absurd hnone (by simp)
    rw [hsame, Head.released, hterminal, Option.any_some, decide_eq_false_iff_not] at hkept
    exact absurd hover hkept

end ScanReducer

/-! ### Runs -/

/-- The transactions that the blocks of a run contain, as they were decided. -/
def Decided (first : Reducer) (later : List (Block × List ReferencedCommit)) : Decisions :=
  fun height transaction decision ↦ ∃ earlier block evidence rest before outcome next,
    later = earlier ++ (block, evidence) :: rest ∧ first.replay earlier = some before ∧
    before.applyBlockDetailed block evidence = some (.ok outcome, next) ∧
    block.height = height ∧ ∃ i : ℕ, block.transactions[i]? = some transaction ∧
      outcome.decisions[i]? = some decision

theorem Decided.mono {first : Reducer} {later more : List (Block × List ReferencedCommit)}
    {height : U32} {transaction : Transaction} {decision : OperationDecision}
    (h : Decided first later height transaction decision) :
    Decided first (later ++ more) height transaction decision := by
  obtain ⟨earlier, block, evidence, rest, before, outcome, next, rfl, hrest⟩ := h
  exact ⟨earlier, block, evidence, rest ++ more, before, outcome, next, by simp, hrest⟩

/-- At every tip of the run within the cooldown, the name has this ended head. -/
def Quarantined (first : Reducer) (later : List (Block × List ReferencedCommit)) (nameId : NameId)
    (head : Head) (terminal : U32) : Prop :=
  ∀ past reached tip, past <+: later → first.replay past = some reached →
    reached.tipHeight = some tip → terminal ≤ tip →
    tip.val < terminal.val + first.rules.parameters.cooldownBlocks.val →
    reached.heads[nameId]? = some (head.endedAt terminal)

/-- **The phases of a name** after a run that began with an active head. -/
inductive Phase (first : Reducer) (later : List (Block × List ReferencedCommit)) (nameId : NameId)
    (head : Head) (start tip : U32) (current : Option Head) : Prop
  | goesOn (last : Head)
      (hchain : RefreshChain (Decided first later) first.rules.parameters nameId head last)
      (hactive : last.terminalHeight = none) (hcurrent : current = some last)
  | coolsDown (last : Head) (terminal : U32)
      (hchain : RefreshChain (Decided first later) first.rules.parameters nameId head last)
      (hends : EndsAt (Decided first later) terminal last) (hstart : start < terminal)
      (hquarantined : Quarantined first later nameId last terminal)
      (hcurrent : current = some (last.endedAt terminal))
  | over (last : Head) (terminal : U32)
      (hchain : RefreshChain (Decided first later) first.rules.parameters nameId head last)
      (hends : EndsAt (Decided first later) terminal last) (hstart : start < terminal)
      (hquarantined : Quarantined first later nameId last terminal)
      (hover : terminal.val + first.rules.parameters.cooldownBlocks.val ≤ tip.val)
      (hsince : Since (Decided first later) first.rules.parameters nameId
        (terminal.val + first.rules.parameters.cooldownBlocks.val) current)

section Run

variable {first reached next : Reducer} {later : List (Block × List ReferencedCommit)}
  {nameId : NameId} {head : Head} {start tip : U32}

/-- The next tip extends a quarantine when it is past the cooldown or has the ended head. -/
theorem Quarantined.extend {block : Block × List ReferencedCommit} {last : Head} {terminal : U32}
    (h : Quarantined first later nameId last terminal)
    (hreplay : first.replay (later ++ [block]) = some next)
    (hnext : ∀ tip', next.tipHeight = some tip' →
      tip'.val < terminal.val + first.rules.parameters.cooldownBlocks.val →
      next.heads[nameId]? = some (last.endedAt terminal)) :
    Quarantined first (later ++ [block]) nameId last terminal := by
  intro past reached tip hpast hreached htip hle hlt
  rcases List.prefix_concat_iff.1 hpast with rfl | hpast
  · rw [hreplay, Option.some.injEq] at hreached
    subst hreached
    exact hnext tip htip hlt
  · exact h past reached tip hpast hreached htip hle hlt

/-- Tips only grow. -/
theorem Reducer.tip_le_of_replay (hindexed : first.toRecords.Indexed) (hinv : first.scan.Inv)
    (htip : first.tipHeight = some tip) (h : first.replay later = some reached) :
    ∃ tip', reached.tipHeight = some tip' ∧ tip ≤ tip' := by
  induction later using List.reverseRecOn generalizing reached with
  | nil =>
    rw [← Option.some.inj h]
    exact ⟨tip, htip, le_rfl⟩
  | append_singleton later block ih =>
    rw [replay_append, Option.bind_eq_some_iff] at h
    obtain ⟨previous, hprevious, haccept⟩ := h
    obtain ⟨tip', htip', hle⟩ := ih hprevious
    obtain ⟨outcome, happly⟩ := accept_eq_some_iff.1 haccept
    obtain ⟨s, hscan, -⟩ := scan_of_apply (indexed_replay hindexed hprevious) happly
    obtain ⟨supplied, hheight, -, -, -, hadvance, -⟩ := ScanReducer.applyBlock_eq_ok hscan
    have hnext := ((inv_replay hindexed hinv hprevious).atTip htip' hheight).1
    refine ⟨block.1.height, congrArg ScanReducer.tipHeight hadvance, ?_⟩
    grind

/-- A terminal height above the tip is not reached by the run so far. -/
theorem quarantined_of_lt (hindexed : first.toRecords.Indexed) (hinv : first.scan.Inv)
    (hreplay : first.replay later = some reached) (htip : reached.tipHeight = some tip)
    {terminal : U32} (hlt : tip < terminal) (last : Head) :
    Quarantined first later nameId last terminal := by
  intro past earlier tip' hpast hearlier htip' hle
  obtain ⟨rest, rfl⟩ := hpast
  rw [Reducer.replay_append_list, hearlier, Option.bind_some] at hreplay
  obtain ⟨tip'', htip'', hle'⟩ := Reducer.tip_le_of_replay
    (Reducer.indexed_replay hindexed hearlier)
    (Reducer.inv_replay hindexed hinv hearlier) htip' hreplay
  rw [htip, Option.some.injEq] at htip''
  subst htip''
  exact absurd (hle.trans hle') (not_le.2 hlt)

/-- **One block of a run.** -/
theorem Phase.block {block : Block × List ReferencedCommit} (hindexed : first.toRecords.Indexed)
    (hinv : first.scan.Inv) (hreplay : first.replay later = some reached)
    (htip : reached.tipHeight = some tip) (hle : start ≤ tip)
    (h : Phase first later nameId head start tip reached.heads[nameId]?)
    (hnext : first.replay (later ++ [block]) = some next) :
    Phase first (later ++ [block]) nameId head start block.1.height next.heads[nameId]? := by
  have hsplit := hnext
  rw [Reducer.replay_append, hreplay, Option.bind_some] at hsplit
  obtain ⟨outcome, happly⟩ := Reducer.accept_eq_some_iff.1 hsplit
  obtain ⟨s, hscan, -, hdecisions, -⟩ :=
    Reducer.scan_of_apply (Reducer.indexed_replay hindexed hreplay) happly
  have hreached := Reducer.inv_replay hindexed hinv hreplay
  have hrules : reached.scan.rules = first.rules := Reducer.rules_replay hreplay
  obtain ⟨supplied, hheight, -, -, -, hadvance, -⟩ := ScanReducer.applyBlock_eq_ok hscan
  have hnextTip : next.tipHeight = some block.1.height := congrArg ScanReducer.tipHeight hadvance
  have habove := (hreached.atTip htip hheight).1
  -- the events so far stay, and those of the block are added
  have hmono : ∀ h t d, Decided first later h t d → Decided first (later ++ [block]) h t d :=
    fun _ _ _ ↦ Decided.mono
  have hdecided : Ledger.DecidedAll (Decided first (later ++ [block])) block.1.height
      block.1.transactions s.decisions := by
    intro i transaction decision htransaction hdecision
    rw [← hdecisions] at hdecision
    exact ⟨later, block.1, block.2, [], reached, outcome, next, rfl, hreplay, happly, rfl, i,
      htransaction, hdecision⟩
  rcases h with ⟨last, hchain, hactive, hcurrent⟩ |
    ⟨last, terminal, hchain, hends, hstart, hquarantined, hcurrent⟩ |
    ⟨last, terminal, hchain, hends, hstart, hquarantined, hover, hsince⟩
  · obtain ⟨last', hchain', hactive', hafter⟩ :=
      hreached.block_active htip hscan hcurrent hactive hdecided
    rw [hrules] at hchain'
    have hwhole := (hchain.mono hmono).trans hchain'
    rcases hafter with hafter | ⟨hends, hafter⟩
    · exact .goesOn last' hwhole hactive' hafter
    · refine .coolsDown last' block.1.height hwhole hends (by grind) ?_ hafter
      refine (quarantined_of_lt hindexed hinv hreplay htip (by grind) last').extend hnext ?_
      exact fun _ _ _ ↦ hafter
  · by_cases hlt : block.1.height.val < terminal.val + first.rules.parameters.cooldownBlocks.val
    · have hafter : next.heads[nameId]? = some (last.endedAt terminal) :=
        hreached.block_cooldown hscan hcurrent rfl (by rw [hrules]; exact hlt)
      exact .coolsDown last terminal (hchain.mono hmono) (hends.mono hmono) hstart
        (hquarantined.extend hnext fun _ _ _ ↦ hafter) hafter
    · have hsince := hreached.block_since hscan (not_lt.1 hlt)
        (Or.inr ⟨_, terminal, hcurrent, rfl, by rw [hrules]; exact not_lt.1 hlt⟩) hdecided
      rw [hrules] at hsince
      refine .over last terminal (hchain.mono hmono) (hends.mono hmono) hstart
        (hquarantined.extend hnext fun tip' htip' hlt' ↦ ?_) (not_lt.1 hlt) hsince
      rw [hnextTip, Option.some.injEq] at htip'
      subst htip'
      exact absurd hlt' hlt
  · have hlater : terminal.val + first.rules.parameters.cooldownBlocks.val ≤
      block.1.height.val := by
      omega
    have hsince' := hsince.mono hmono
    rw [← hrules] at hsince'
    have hafter := hreached.block_since hscan (by rw [hrules]; exact hlater) (Or.inl hsince')
      hdecided
    rw [hrules] at hafter
    refine .over last terminal (hchain.mono hmono) (hends.mono hmono) hstart
      (hquarantined.extend hnext fun tip' htip' hlt' ↦ ?_) hlater hafter
    rw [hnextTip, Option.some.injEq] at htip'
    subst htip'
    omega

/-- **A whole run.** -/
theorem phase_of_replay (hindexed : first.toRecords.Indexed) (hinv : first.scan.Inv)
    (hstart : first.tipHeight = some start) (hhead : first.heads[nameId]? = some head)
    (hactive : head.terminalHeight = none) (hreplay : first.replay later = some reached) :
    ∃ tip, reached.tipHeight = some tip ∧ start ≤ tip ∧
      Phase first later nameId head start tip reached.heads[nameId]? := by
  induction later using List.reverseRecOn generalizing reached with
  | nil =>
    rw [← Option.some.inj hreplay]
    exact ⟨start, hstart, le_rfl, .goesOn head .refl hactive hhead⟩
  | append_singleton later block ih =>
    have hsplit := hreplay
    rw [Reducer.replay_append, Option.bind_eq_some_iff] at hsplit
    obtain ⟨previous, hprevious, haccept⟩ := hsplit
    obtain ⟨tip, htip, hle, hphase⟩ := ih hprevious
    obtain ⟨tip', htip', hle'⟩ := Reducer.tip_le_of_replay hindexed hinv hstart hreplay
    obtain ⟨outcome, happly⟩ := Reducer.accept_eq_some_iff.1 haccept
    obtain ⟨-, -, -, -, -, o, -, -, -, hclose, -⟩ := Reducer.applyBlockDetailed_eq_ok_iff.1 happly
    have hblock : reached.tipHeight = some block.1.height := by
      rw [hclose]
      rfl
    rw [hblock, Option.some.injEq] at htip'
    exact ⟨block.1.height, hblock, htip' ▸ hle',
      hphase.block hindexed hinv hprevious htip hle hreplay⟩

end Run

/-! ### Resolution -/

namespace Reducer

variable {reducer : Reducer} {name : Name} {nameId : NameId} {head : Head} {height tip : U32}

/-- A reducer with an invariant tip resolves by the terminal height of the head. -/
theorem resolve_eq (hinv : reducer.scan.Inv) (htip : reducer.tipHeight = some tip)
    (hname : name.id = .ok nameId) (hhead : reducer.heads[nameId]? = some head) :
    reducer.resolve name tip =
      if head.terminalHeight = none then ⟨.active, some head.ua, some head⟩
      else ⟨.cooldown, none, some head⟩ := by
  rw [ScanReducer.Inv, show reducer.scan.tipHeight = some tip from htip] at hinv
  have hlifecycle : head.lifecycle tip reducer.rules.parameters = _ :=
    (hinv.2.head nameId head hhead).lifecycle_eq
  rw [resolve, hname]
  dsimp only
  rw [hhead]
  dsimp only
  rw [hlifecycle]
  by_cases hactive : head.terminalHeight = none
  · rw [if_pos hactive, if_pos hactive]
  · rw [if_neg hactive, if_neg hactive]

/-- Authenticated resolution succeeds at the tip, and before the first block. -/
theorem resolveAuthenticated_eq_ok {resolution : Resolution}
    (h : reducer.resolveAuthenticated name height = .ok resolution) :
    (reducer.tipHeight = none ∨ reducer.tipHeight = some height) ∧
      resolution = reducer.resolve name height := by
  rw [resolveAuthenticated] at h
  split at h
  · rename_i htip
    split at h
    · exact ⟨Or.inl htip, (Except.ok.inj h).symm⟩
    · exact absurd h (by simp)
  · rename_i tip htip
    split at h
    · exact absurd h (by simp)
    · split at h
      · exact absurd h (by simp)
      · rename_i hsame
        rw [ne_eq, not_not] at hsame
        subst hsame
        exact ⟨Or.inr htip, (Except.ok.inj h).symm⟩

theorem resolveAuthenticated_tip (htip : reducer.tipHeight = some tip) :
    reducer.resolveAuthenticated name tip = .ok (reducer.resolve name tip) := by
  rw [resolveAuthenticated, htip]
  dsimp only
  rw [if_neg (lt_irrefl tip), if_neg (not_not.2 rfl)]

/-- **A name that resolves Active** has an active head at the tip. -/
theorem of_resolves_active (hinv : reducer.scan.Inv) {resolution : Resolution}
    (h : reducer.resolveAuthenticated name height = .ok resolution)
    (hlifecycle : resolution.lifecycle = .active) :
    reducer.tipHeight = some height ∧ ∃ nameId head, name.id = .ok nameId ∧
      reducer.heads[nameId]? = some head ∧ head.terminalHeight = none ∧
      resolution = ⟨.active, some head.ua, some head⟩ := by
  obtain ⟨htip, rfl⟩ := resolveAuthenticated_eq_ok h
  rw [resolve] at hlifecycle
  split at hlifecycle
  · exact absurd hlifecycle (by simp)
  rename_i nameId hname
  split at hlifecycle
  · exact absurd hlifecycle (by simp)
  rename_i head hhead
  rcases htip with htip | htip
  · -- without a tip there are no heads
    rw [ScanReducer.Inv, show reducer.scan.tipHeight = none from htip] at hinv
    have hempty : reducer.heads = ∅ := congrArg Ledger.heads hinv.2
    rw [hempty] at hhead
    exact absurd hhead (by simp)
  · have hresolve := resolve_eq hinv htip hname hhead
    refine ⟨htip, nameId, head, hname, hhead, ?_⟩
    by_cases hactive : head.terminalHeight = none
    · rw [if_pos hactive] at hresolve
      exact ⟨hactive, hresolve⟩
    · exfalso
      rw [if_neg hactive] at hresolve
      have hcooldown : (reducer.resolve name height).lifecycle = .cooldown := by rw [hresolve]
      rw [resolve, hname] at hcooldown
      dsimp only at hcooldown
      rw [hhead] at hcooldown
      dsimp only at hcooldown
      rw [hlifecycle] at hcooldown
      exact absurd hcooldown (by simp)

end Reducer

/-- **Anti-impersonation quarantine.** Let a name resolve Active with head `X` and, further along
the same chain of accepted blocks, Active with head `Y`. Either accepted REFRESHes lead from `X` to
`Y`; or the last head of the lineage of `X` ended at a later height `t`, the lineage of `Y` began
with a REVEAL accepted a cooldown or more after `t`, and at every tip within the cooldown the name
resolves Cooldown, without an address. -/
theorem anti_impersonation_quarantine {parameters : Parameters} {parent : Bytes32}
    {verifier : ProofVerifier} {start first last : Reducer}
    {earlier later : List (Block × List ReferencedCommit)}
    (hnew : Reducer.new parameters parent verifier = .ok start)
    (hfirst : start.replay earlier = some first) (hlast : first.replay later = some last)
    {name : Name} {h₁ h₂ : U32} {X Y : Head}
    (hX : first.resolveAuthenticated name h₁ = .ok ⟨.active, some X.ua, some X⟩)
    (hY : last.resolveAuthenticated name h₂ = .ok ⟨.active, some Y.ua, some Y⟩) :
    ∃ nameId, name.id = .ok nameId ∧
      (RefreshChain (Decided first later) parameters nameId X Y ∨
      ∃ t L, h₁ < t ∧ RefreshChain (Decided first later) parameters nameId X L ∧
        EndsAt (Decided first later) t L ∧
        (∃ height revealed, t.val + parameters.cooldownBlocks.val ≤ height.val ∧
          RevealStep (Decided first later) nameId height revealed ∧
          RefreshChain (Decided first later) parameters nameId revealed Y) ∧
        ∀ past reached tip, past <+: later → first.replay past = some reached →
          reached.tipHeight = some tip → t ≤ tip →
          tip.val < t.val + parameters.cooldownBlocks.val →
          reached.resolveAuthenticated name tip =
            .ok ⟨.cooldown, none, some { L with terminalHeight := some t }⟩) := by
  have hstart := Reducer.indexed_new hnew
  have hindexed := Reducer.indexed_replay hstart hfirst
  have hinv := Reducer.inv_replay hstart (Reducer.inv_new hnew) hfirst
  have hparameters : first.rules.parameters = parameters := by
    rw [Reducer.rules_replay hfirst]
    obtain ⟨valid, rfl⟩ := Reducer.new_eq_ok_iff.1 hnew
    rfl
  obtain ⟨htip, nameId, head, hname, hhead, hactive, heq⟩ :=
    Reducer.of_resolves_active hinv hX rfl
  obtain ⟨htip', nameId', current, hname', hcurrent, hactive', heq'⟩ :=
    Reducer.of_resolves_active (Reducer.inv_replay hindexed hinv hlast) hY rfl
  rw [hname, Except.ok.injEq] at hname'
  rw [Resolution.mk.injEq, Option.some.injEq, Option.some.injEq] at heq heq'
  obtain ⟨-, -, rfl⟩ := heq
  obtain ⟨-, -, rfl⟩ := heq'
  subst hname'
  refine ⟨nameId, hname, ?_⟩
  obtain ⟨tip, -, -, hphase⟩ := phase_of_replay hindexed hinv htip hhead hactive hlast
  rw [hcurrent, ← hparameters] at *
  rcases hphase with ⟨L, hchain, -, hL⟩ | ⟨L, t, -, -, -, -, hL⟩ |
    ⟨L, t, hchain, hends, hlt, hquarantined, hover, hsince⟩
  · rw [← Option.some.inj hL] at hchain
    exact Or.inl hchain
  · -- an ended head is not active
    rw [Option.some.inj hL] at hactive'
    exact absurd hactive' (by simp [Head.endedAt])
  · obtain ⟨height, revealed, M, hle, hreveal, hchain', hM⟩ := hsince Y rfl
    have hY' : Y = M := by
      rcases hM with hM | ⟨terminal, hM⟩
      · exact hM
      · rw [hM] at hactive'
        exact absurd hactive' (by simp [Head.endedAt])
    subst hY'
    refine Or.inr ⟨t, L, hlt, hchain, hends, ⟨height, revealed, hle, hreveal, hchain'⟩, ?_⟩
    intro past reached tip' hpast hreached htip'' hle' hlt'
    have hended := hquarantined past reached tip' hpast hreached htip'' hle' hlt'
    rw [Reducer.resolveAuthenticated_tip htip'', Reducer.resolve_eq
      (Reducer.inv_replay hindexed hinv hreached) htip'' hname hended,
      if_neg (by simp [Head.endedAt])]
    rfl

end Lineage

/-! ### A second lineage of `alice`

After the spend at height two the name is claimable at height five; its next window is at height
seven, and a COMMIT at height six serves it. -/

namespace Sample

/-- A block without transactions. -/
def emptyBlock (height : U32) (hash prevHash : UInt8) : Block :=
  ⟨height, Vector.replicate 32 hash, Vector.replicate 32 prevHash, []⟩

/-- A second COMMIT. -/
def commitTransaction6 : Transaction :=
  ⟨0, Vector.replicate 32 13, [], some (.commit commitment)⟩

/-- The REVEAL of `alice` under the second COMMIT. -/
def revealTransaction7 : Transaction :=
  ⟨0, Vector.replicate 32 14, [⟨0, field 9, field 10⟩], some (.reveal
    { name := alice
      commit := ⟨6, 0, Vector.replicate 32 13⟩
      ua := ua
      actionIndex := 0
      successorFutureNf := field 11
      proof := [1] })⟩

/-- The chain up to the first REVEAL. -/
def firstLineage : List (Block × List ReferencedCommit) := [(block0, []), (block1, [])]

/-- The chain from the spend to the second REVEAL. -/
def secondLineage : List (Block × List ReferencedCommit) :=
  [(block2, []), (emptyBlock 3 4 3, []), (emptyBlock 4 5 4, []), (emptyBlock 5 6 5, []),
    ({ emptyBlock 6 7 6 with transactions := [commitTransaction6] }, []),
    ({ emptyBlock 7 8 7 with transactions := [revealTransaction7] }, [])]

theorem anti_impersonation_quarantine_alice : ∃ first last X Y,
    start.replay firstLineage = some first ∧ first.replay secondLineage = some last ∧
    first.resolveAuthenticated alice 1 = .ok ⟨.active, some X.ua, some X⟩ ∧
    last.resolveAuthenticated alice 7 = .ok ⟨.active, some Y.ua, some Y⟩ ∧
    ∃ nameId, alice.id = .ok nameId ∧
      (RefreshChain (Decided first secondLineage) parameters nameId X Y ∨
      ∃ t L, 1 < t ∧ RefreshChain (Decided first secondLineage) parameters nameId X L ∧
        EndsAt (Decided first secondLineage) t L ∧
        (∃ height revealed, t.val + parameters.cooldownBlocks.val ≤ height.val ∧
          RevealStep (Decided first secondLineage) nameId height revealed ∧
          RefreshChain (Decided first secondLineage) parameters nameId revealed Y) ∧
        ∀ past reached tip, past <+: secondLineage → first.replay past = some reached →
          reached.tipHeight = some tip → t ≤ tip →
          tip.val < t.val + parameters.cooldownBlocks.val →
          reached.resolveAuthenticated alice tip =
            .ok ⟨.cooldown, none, some { L with terminalHeight := some t }⟩) := by
  have hevaluated : ((start.replay firstLineage).bind fun first ↦
      (first.replay secondLineage).bind fun last ↦
        (first.resolveAuthenticated alice 1).toOption.bind fun resolution ↦
          (last.resolveAuthenticated alice 7).toOption.map fun resolution' ↦
            (resolution.lifecycle, resolution'.lifecycle)) = some (.active, .active) := by
    decide +kernel
  simp only [Option.bind_eq_some_iff, Option.map_eq_some_iff, Prod.mk.injEq,
    Except.toOption_eq_some_iff] at hevaluated
  obtain ⟨first, hfirst, last, hlast, resolution, hX, resolution', hY, hactive, hactive'⟩ :=
    hevaluated
  have hstart := Reducer.indexed_new new_eq_start
  have hinv := Reducer.inv_replay hstart (Reducer.inv_new new_eq_start) hfirst
  obtain ⟨-, -, X, -, -, -, rfl⟩ := Reducer.of_resolves_active hinv hX hactive
  obtain ⟨-, -, Y, -, -, -, rfl⟩ := Reducer.of_resolves_active
    (Reducer.inv_replay (Reducer.indexed_replay hstart hfirst) hinv hlast) hY hactive'
  exact ⟨first, last, X, Y, hfirst, hlast, hX, hY,
    anti_impersonation_quarantine new_eq_start hfirst hlast hX hY⟩

end Sample

end CoppiceNames
