import CoppiceNames.Reducer.Renewal

/-!
# Resolution from the chain

What a name resolves to is a fact about the chain of accepted blocks alone, without any state in
between. A name is active when some transaction had a REVEAL or REFRESH of it accepted, nothing
since has spent the successor note and the lease runs (`StandsSince`); it cools down when such a
head ended a little while ago, with its lease or by a spend that is no REFRESH (`EndedIn`); and it
is missing otherwise.

One direction follows a head through the blocks (`heads_of_standsSince`, `heads_of_endedIn`). The
other asks of a stored head where it comes from: through the transactions of a block
(`Ledger.Inv.origin`), then through the blocks of the chain (`stands_or_ended`).
-/

open Std hiding not_le not_lt

namespace CoppiceNames

section Resolution

variable [Primitives]

/-! ### Where a head inside a block comes from -/

namespace Ledger

/-- The head was there before these transactions, or one of them installed it; since then none has
spent it. -/
def Carries (ledger : Ledger) (rules : Rules) (height : U32) (transactions : List Transaction)
    (nameId : NameId) (head : Head) : Prop :=
  (ledger.heads[nameId]? = some head ∧ Unspent head.futureNf transactions) ∨
    ∃ before transaction after, transactions = before ++ transaction :: after ∧
      transaction.operates ((ledger.applyTransactions rules height before).2.2.applyTransaction
        rules height transaction).1 nameId = true ∧
      ((ledger.applyTransactions rules height before).2.2.applyTransaction rules height
        transaction).2.2.heads[nameId]? = some head ∧ Unspent head.futureNf after

/-- **Where the head of a name comes from** after some transactions of a block. -/
inductive Origin (ledger : Ledger) (rules : Rules) (height : U32) (transactions : List Transaction)
    (nameId : NameId) (head : Head) : Prop
  /-- It was terminal before. -/
  | kept (hterminal : head.terminalHeight ≠ none) (hhead : ledger.heads[nameId]? = some head)
  /-- It is active, and not spent since it was installed. -/
  | active (hactive : head.terminalHeight = none)
      (hcarries : ledger.Carries rules height transactions nameId head)
  /-- One of the transactions released it. -/
  | released (last : Head) (before : List Transaction) (transaction : Transaction)
      (after : List Transaction) (hended : head = last.endedAt height)
      (hsplit : transactions = before ++ transaction :: after)
      (hactive : last.terminalHeight = none)
      (hcarries : ledger.Carries rules height before nameId last)
      (hlast : (ledger.applyTransactions rules height before).2.2.heads[nameId]? = some last)
      (hspent : ∃ action ∈ transaction.actions, action.nullifier = last.futureNf)
      (hnot : ¬ ∃ op, Refreshes transaction ((ledger.applyTransactions rules height
        before).2.2.applyTransaction rules height transaction).1 nameId op)

variable {ledger : Ledger} {rules : Rules} {height : U32} {transaction : Transaction}
  {transactions : List Transaction} {bound : ℕ} {nameId : NameId} {head : Head}

theorem applyTransactions_append (ledger : Ledger) (rules : Rules) (height : U32)
    (before after : List Transaction) :
    (ledger.applyTransactions rules height (before ++ after)).2.2 =
      ((ledger.applyTransactions rules height before).2.2.applyTransactions rules height
        after).2.2 := by
  induction before generalizing ledger with
  | nil => rfl
  | cons first before ih => exact ih _

theorem unspent_concat {futureNf : FieldElement} (h : Unspent futureNf transactions)
    (hlast : ∀ action ∈ transaction.actions, action.nullifier ≠ futureNf) :
    Unspent futureNf (transactions ++ [transaction]) := by
  intro other hmem
  rcases List.mem_append.1 hmem with hmem | hmem
  · exact h other hmem
  · rw [List.mem_singleton.1 hmem]
    exact hlast

/-- A head that is carried stays carried by a transaction that does not spend it. -/
theorem Carries.concat (h : ledger.Carries rules height transactions nameId head)
    (hlast : ∀ action ∈ transaction.actions, action.nullifier ≠ head.futureNf) :
    ledger.Carries rules height (transactions ++ [transaction]) nameId head := by
  rcases h with ⟨hhead, hunspent⟩ | ⟨before, installing, after, rfl, hoperates, hhead, hunspent⟩
  · exact Or.inl ⟨hhead, unspent_concat hunspent hlast⟩
  · refine Or.inr ⟨before, installing, after ++ [transaction], ?_, hoperates, hhead,
      unspent_concat hunspent hlast⟩
    rw [List.append_assoc, List.cons_append]

theorem operates_of_refreshes {decision : OperationDecision} {op : Refresh}
    (h : Refreshes transaction decision nameId op) :
    transaction.operates decision nameId = true := by
  obtain ⟨hop, haccepted, hname⟩ := h
  rw [Transaction.operates, hop]
  exact decide_eq_true ⟨hname, haccepted⟩

/-- A name without a head gets one from an accepted operation only, and the head is active. -/
theorem operates_of_none (hnone : ledger.heads[nameId]? = none)
    (hhead : (ledger.applyTransaction rules height transaction).2.2.heads[nameId]? = some head) :
    head.terminalHeight = none ∧
      transaction.operates (ledger.applyTransaction rules height transaction).1 nameId = true := by
  rw [applyTransaction] at hhead ⊢
  dsimp only at hhead ⊢
  rw [getElem?_terminate, Option.map_eq_some_iff] at hhead
  obtain ⟨current, hcurrent, rfl⟩ := hhead
  have hunspent : ledger.spent transaction nameId current = false := by
    rw [spent, hnone]
    simp
  rw [afterSpend, if_neg (by simp [hunspent])]
  rcases applyOperation_cases ledger rules height transaction with
    ⟨op, id, installed, hop, hresult, heq⟩ | ⟨op, id, installed, hop, hresult, heq⟩ |
      ⟨commitment, -, heq⟩ | ⟨clause, heq⟩
  · rw [heq, OrderedMap.getElem?_insert_eq_some_iff, hnone] at hcurrent
    rcases hcurrent with ⟨rfl, rfl⟩ | ⟨-, hold⟩
    · obtain ⟨hname, -, -, -, -, action, epoch, expiry, -, -, -, rfl⟩ := revealed_eq_ok hresult
      refine ⟨rfl, ?_⟩
      rw [heq, Transaction.operates, hop]
      exact decide_eq_true ⟨hname, rfl⟩
    · exact absurd hold (by simp)
  · obtain ⟨-, predecessor, hpredecessor, -⟩ := refreshed_eq_ok hresult
    rw [heq, OrderedMap.getElem?_insert_eq_some_iff, hnone] at hcurrent
    rcases hcurrent with ⟨rfl, -⟩ | ⟨-, hold⟩
    · rw [hnone] at hpredecessor
      exact absurd hpredecessor (by simp)
    · exact absurd hold (by simp)
  · rw [heq, hnone] at hcurrent
    exact absurd hcurrent (by simp)
  · rw [heq, hnone] at hcurrent
    exact absurd hcurrent (by simp)

/-- **One transaction more.** -/
theorem Origin.concat {current : Option Head}
    (h : ∀ head, current = some head → ledger.Origin rules height transactions nameId head)
    (hcurrent : (ledger.applyTransactions rules height transactions).2.2.heads[nameId]? = current)
    (hinv : (ledger.applyTransactions rules height transactions).2.2.Inv rules.parameters height
      bound) (hbound : bound ≤ transaction.txIndex.val)
    (hhead : (ledger.applyTransactions rules height
      (transactions ++ [transaction])).2.2.heads[nameId]? = some head) :
    ledger.Origin rules height (transactions ++ [transaction]) nameId head := by
  rw [applyTransactions_append] at hhead
  change ((ledger.applyTransactions rules height transactions).2.2.applyTransaction rules height
    transaction).2.2.heads[nameId]? = some head at hhead
  have hnil : Unspent head.futureNf [] := fun other hmem ↦ absurd hmem List.not_mem_nil
  rcases current with - | previous
  · obtain ⟨hactive, hoperates⟩ := operates_of_none hcurrent hhead
    exact .active hactive (Or.inr ⟨transactions, transaction, [], rfl, hoperates, hhead, hnil⟩)
  have heffect := hinv.headEffect hbound hcurrent
  by_cases hterminal : previous.terminalHeight = none
  · -- the head so far is active: it is refreshed, released or left alone
    have hcarries : ledger.Carries rules height transactions nameId previous := by
      rcases h previous rfl with ⟨hne, -⟩ | ⟨-, hcarries⟩ | ⟨last, _, _, _, rfl, _⟩
      · exact absurd hterminal hne
      · exact hcarries
      · exact absurd hterminal (by simp [Head.endedAt])
    by_cases hrefreshes : ∃ op, Refreshes transaction ((ledger.applyTransactions rules height
        transactions).2.2.applyTransaction rules height transaction).1 nameId op
    · obtain ⟨op, hop⟩ := hrefreshes
      obtain ⟨-, successor, ⟨action, epoch, expiry, -, -, -, rfl⟩, hafter⟩ :=
        heffect.refreshed hterminal op hop
      rw [hafter, Option.some.injEq] at hhead
      subst hhead
      exact .active rfl (Or.inr ⟨transactions, transaction, [], rfl, operates_of_refreshes hop,
        hafter, hnil⟩)
    · by_cases hspent : ∃ action ∈ transaction.actions, action.nullifier = previous.futureNf
      · rw [heffect.spent hterminal hrefreshes hspent, Option.some.injEq] at hhead
        exact .released previous transactions transaction [] hhead.symm rfl hterminal hcarries
          hcurrent hspent hrefreshes
      · rw [heffect.unchanged hterminal hrefreshes hspent, Option.some.injEq] at hhead
        subst hhead
        refine .active hterminal (hcarries.concat fun action hmem hspends ↦ ?_)
        exact hspent ⟨action, hmem, hspends⟩
  · -- a terminal head stays as it is
    rw [heffect.terminal hterminal, Option.some.injEq] at hhead
    subst hhead
    rcases h previous rfl with ⟨hne, hkept⟩ | ⟨hactive, -⟩ |
      ⟨last, before, releasing, after, hended, rfl, hactive, hcarries, hlast, hspent, hnot⟩
    · exact .kept hne hkept
    · exact absurd hactive hterminal
    · refine .released last before releasing (after ++ [transaction]) hended ?_ hactive hcarries
        hlast hspent hnot
      rw [List.append_assoc, List.cons_append]

/-- The invariant and the remaining checks between two transactions of an admitted block. -/
theorem Inv.applyTransactions_between {previous : Option U32} {before after : List Transaction}
    (hcheck : checkTransactions previous (before ++ after) = .ok ())
    (h : ledger.Inv rules.parameters height (nextIndex previous)) :
    ∃ previous', checkTransactions previous' after = .ok () ∧
      (ledger.applyTransactions rules height before).2.2.Inv rules.parameters height
        (nextIndex previous') := by
  induction before generalizing ledger previous with
  | nil => exact ⟨previous, hcheck, h⟩
  | cons first before ih =>
    obtain ⟨hbound, -, hrest⟩ := checkTransactions_cons hcheck
    exact ih hrest (h.applyTransaction hbound)

/-- **Through the transactions of a block.** The induction is on the transactions from the last
one. -/
theorem Inv.origin {previous : Option U32}
    (hcheck : checkTransactions previous transactions = .ok ())
    (h : ledger.Inv rules.parameters height (nextIndex previous))
    (hhead : (ledger.applyTransactions rules height transactions).2.2.heads[nameId]? = some head) :
    ledger.Origin rules height transactions nameId head := by
  induction transactions using List.reverseRecOn generalizing head with
  | nil =>
    by_cases hterminal : head.terminalHeight = none
    · exact .active hterminal (Or.inl ⟨hhead, fun other hmem ↦ absurd hmem List.not_mem_nil⟩)
    · exact .kept hterminal hhead
  | append_singleton transactions transaction ih =>
    obtain ⟨bound, hbound, hinv⟩ := h.applyTransactions_before hcheck
    exact Origin.concat (fun head hcurrent ↦ ih (checkTransactions_left hcheck) hcurrent) rfl hinv
      hbound hhead

end Ledger

/-! ### Events of a block -/

section Block

variable {reducer next : Reducer} {block : Block} {evidence : List ReferencedCommit}
  {before after : List Transaction} {transaction : Transaction} {nameId : NameId} {head : Head}
  {supplied : OrderedMap CommitRef Commitment}

/-- The transaction after these spends the head, and it is no accepted REFRESH of the name. -/
def Releases (reducer : Reducer) (block : Block) (evidence : List ReferencedCommit)
    (before : List Transaction) (transaction : Transaction) (nameId : NameId)
    (head : Head) : Prop :=
  (∃ action ∈ transaction.actions, action.nullifier = head.futureNf) ∧
    ∃ terminated o decision terminated' o', InsideBlock reducer block evidence before terminated o ∧
      o.applyTransactionDetailed reducer.rules block.height transaction terminated =
        some (decision, terminated', o') ∧
      ¬ ∃ op, Refreshes transaction decision nameId op

/-- The state inside a block, as the scanning reducer has it. -/
theorem InsideBlock.step_eq (hindexed : reducer.toRecords.Indexed)
    (hadmission : admission reducer.rules.parameters reducer.nextHeight reducer.previousHash
      reducer.commits block evidence = .ok supplied) {terminated : List Termination} {o : OpenBlock}
    (h : InsideBlock reducer block evidence before terminated o) (transaction : Transaction) :
    ∃ terminated' o', o.applyTransactionDetailed reducer.rules block.height transaction terminated =
        some ((((reducer.ledger.startBlock reducer.rules.parameters block.height
          supplied).applyTransactions reducer.rules block.height before).2.2.applyTransaction
            reducer.rules block.height transaction).1, terminated', o') ∧
      o'.records.ledger = (((reducer.ledger.startBlock reducer.rules.parameters block.height
        supplied).applyTransactions reducer.rules block.height before).2.2.applyTransaction
          reducer.rules block.height transaction).2.2 := by
  obtain ⟨supplied', hadmission', hledger, hnext⟩ := h.ledger_eq hindexed
  rw [hadmission, Except.ok.injEq] at hadmission'
  subst hadmission'
  obtain ⟨terminated', o', hstep, ho'⟩ := hnext transaction
  rw [hledger] at hstep ho'
  exact ⟨terminated', o', hstep, ho'⟩

theorem installs_iff (hindexed : reducer.toRecords.Indexed)
    (hadmission : admission reducer.rules.parameters reducer.nextHeight reducer.previousHash
      reducer.commits block evidence = .ok supplied) :
    Installs reducer block evidence before transaction nameId head ↔
      transaction.operates (((reducer.ledger.startBlock reducer.rules.parameters block.height
        supplied).applyTransactions reducer.rules block.height before).2.2.applyTransaction
          reducer.rules block.height transaction).1 nameId = true ∧
      (((reducer.ledger.startBlock reducer.rules.parameters block.height
        supplied).applyTransactions reducer.rules block.height before).2.2.applyTransaction
          reducer.rules block.height transaction).2.2.heads[nameId]? = some head := by
  constructor
  · intro h
    obtain ⟨terminated, o, decision, terminated', o', hinside, hstep, hoperates, hhead⟩ := h
    obtain ⟨terminated'', o'', hstep', ho''⟩ := hinside.step_eq hindexed hadmission transaction
    rw [hstep, Option.some.injEq, Prod.mk.injEq, Prod.mk.injEq] at hstep'
    obtain ⟨rfl, -, rfl⟩ := hstep'
    rw [show o'.records.heads = o'.records.ledger.heads from rfl, ho''] at hhead
    exact ⟨hoperates, hhead⟩
  · intro h
    obtain ⟨terminated, o, hinside⟩ := InsideBlock.of_admission hindexed hadmission before
    obtain ⟨terminated', o', hstep, ho'⟩ := hinside.step_eq hindexed hadmission transaction
    refine ⟨terminated, o, _, terminated', o', hinside, hstep, h.1, ?_⟩
    rw [show o'.records.heads = o'.records.ledger.heads from rfl, ho']
    exact h.2

theorem releases_iff (hindexed : reducer.toRecords.Indexed)
    (hadmission : admission reducer.rules.parameters reducer.nextHeight reducer.previousHash
      reducer.commits block evidence = .ok supplied) :
    Releases reducer block evidence before transaction nameId head ↔
      (∃ action ∈ transaction.actions, action.nullifier = head.futureNf) ∧
      ¬ ∃ op, Refreshes transaction (((reducer.ledger.startBlock reducer.rules.parameters
        block.height supplied).applyTransactions reducer.rules block.height
          before).2.2.applyTransaction reducer.rules block.height transaction).1 nameId op := by
  constructor
  · intro h
    obtain ⟨haction, terminated, o, decision, terminated', o', hinside, hstep, hrefreshes⟩ := h
    obtain ⟨terminated'', o'', hstep', -⟩ := hinside.step_eq hindexed hadmission transaction
    rw [hstep, Option.some.injEq, Prod.mk.injEq] at hstep'
    rw [hstep'.1] at hrefreshes
    exact ⟨haction, hrefreshes⟩
  · intro h
    obtain ⟨terminated, o, hinside⟩ := InsideBlock.of_admission hindexed hadmission before
    obtain ⟨terminated', o', hstep, -⟩ := hinside.step_eq hindexed hadmission transaction
    exact ⟨h.1, terminated, o, _, terminated', o', hinside, hstep, h.2⟩

end Block

/-! ### Events of the chain -/

/-- The head stands before a transaction of the block after these blocks: it was accepted at this
height, and no transaction since has spent it. -/
def StandsBefore (start reducer : Reducer) (earlier : List (Block × List ReferencedCommit))
    (block : Block) (evidence : List ReferencedCommit) (before : List Transaction)
    (nameId : NameId) (head : Head) (height : U32) : Prop :=
  (StandsSince start earlier nameId head height ∧ Unspent head.futureNf before) ∨
    (block.height = height ∧ ∃ first transaction rest, before = first ++ transaction :: rest ∧
      Installs reducer block evidence first transaction nameId head ∧ Unspent head.futureNf rest)

/-- A block of the chain accepted the head at height `p` and it ended at height `x`: either it stood
until its lease was over there, or it stood until a transaction there released it. -/
def EndedIn (start : Reducer) (chain : List (Block × List ReferencedCommit)) (nameId : NameId)
    (head : Head) (p x : U32) : Prop :=
  ∃ earlier block evidence later reducer, chain = earlier ++ (block, evidence) :: later ∧
    start.replay earlier = some reducer ∧ block.height = x ∧
    ((StandsSince start earlier nameId head p ∧
        x.val = p.val + start.rules.parameters.leaseBlocks.val) ∨
      (x.val < p.val + start.rules.parameters.leaseBlocks.val ∧
        ∃ before transaction after, block.transactions = before ++ transaction :: after ∧
          StandsBefore start reducer earlier block evidence before nameId head p ∧
          Releases reducer block evidence before transaction nameId head))

theorem Reducer.resolve_of_none {reducer : Reducer} {name : Name} {nameId : NameId} {height : U32}
    (hname : name.id = .ok nameId) (hnone : reducer.heads[nameId]? = none) :
    reducer.resolve name height = ⟨.missing, none, none⟩ := by
  rw [resolve, hname]
  dsimp only
  rw [hnone]

section Chain

variable {start reducer next last : Reducer} {chain : List (Block × List ReferencedCommit)}
  {block : Block} {evidence : List ReferencedCommit} {nameId : NameId} {head : Head} {p x : U32}
  {parameters : Parameters} {parent : Bytes32} {verifier : ProofVerifier}

theorem StandsSince.concat (h : StandsSince start chain nameId head p)
    {entry : Block × List ReferencedCommit}
    (hunspent : Unspent head.futureNf entry.1.transactions) :
    StandsSince start (chain ++ [entry]) nameId head p := by
  obtain ⟨earlier, block, evidence, later, reducer, before, transaction, after, rfl, hrest⟩ := h
  obtain ⟨hearlier, hheight, hblock, hinstalls, hafter, hlater⟩ := hrest
  refine ⟨earlier, block, evidence, later ++ [entry], reducer, before, transaction, after, ?_,
    hearlier, hheight, hblock, hinstalls, hafter, fun other hmem ↦ ?_⟩
  · rw [List.append_assoc, List.cons_append]
  · rcases List.mem_append.1 hmem with hmem | hmem
    · exact hlater other hmem
    · rw [List.mem_singleton.1 hmem]
      exact hunspent

theorem EndedIn.concat (h : EndedIn start chain nameId head p x)
    (entry : Block × List ReferencedCommit) :
    EndedIn start (chain ++ [entry]) nameId head p x := by
  obtain ⟨earlier, block, evidence, later, reducer, rfl, hrest⟩ := h
  refine ⟨earlier, block, evidence, later ++ [entry], reducer, ?_, hrest⟩
  rw [List.append_assoc, List.cons_append]

theorem standsSince_of_installs (hreplay : start.replay chain = some reducer)
    {before after : List Transaction} {transaction : Transaction}
    (hblock : block.transactions = before ++ transaction :: after)
    (h : Installs reducer block evidence before transaction nameId head)
    (hunspent : Unspent head.futureNf after) :
    StandsSince start (chain ++ [(block, evidence)]) nameId head block.height :=
  ⟨chain, block, evidence, [], reducer, before, transaction, after, rfl, hreplay, rfl, hblock, h,
    hunspent, fun _ hmem ↦ absurd hmem List.not_mem_nil⟩

/-- A stored head was accepted at the height of its producer, and its lease counts from there. -/
theorem Ledger.Inv.expiry_val {ledger : Ledger} {height : U32} {bound : ℕ}
    (h : ledger.Inv parameters height bound) (hhead : ledger.heads[nameId]? = some head) :
    head.expiryHeight.val = head.producer.height.val + parameters.leaseBlocks.val :=
  Parameters.expiry_eq_ok_iff.1 (h.head nameId head hhead).expiry

/-- What the chain says about a stored head: it stands, or it ended. -/
inductive FromChain (start : Reducer) (chain : List (Block × List ReferencedCommit))
    (nameId : NameId) (head : Head) : Prop
  | stands (p : U32) (hactive : head.terminalHeight = none)
      (hstands : StandsSince start chain nameId head p)
  | ended (last : Head) (p x : U32) (hended : head = last.endedAt x)
      (hin : EndedIn start chain nameId last p x)

theorem parameters_of_replay (hnew : Reducer.new parameters parent verifier = .ok start)
    (hreplay : start.replay chain = some reducer) : reducer.rules.parameters = parameters := by
  rw [Reducer.rules_replay hreplay]
  obtain ⟨valid, rfl⟩ := Reducer.new_eq_ok_iff.1 hnew
  rfl

/-- **One block more.** -/
theorem FromChain.concat (hnew : Reducer.new parameters parent verifier = .ok start)
    (hreplay : start.replay chain = some reducer)
    (h : ∀ head, reducer.heads[nameId]? = some head → FromChain start chain nameId head)
    {outcome : BlockOutcome}
    (happly : reducer.applyBlockDetailed block evidence = some (.ok outcome, next))
    (hhead : next.heads[nameId]? = some head) :
    FromChain start (chain ++ [(block, evidence)]) nameId head := by
  have hindexed := Reducer.indexed_replay (Reducer.indexed_new hnew) hreplay
  have hinv := Reducer.inv_replay (Reducer.indexed_new hnew) (Reducer.inv_new hnew) hreplay
  have hparameters := parameters_of_replay hnew hreplay
  have hlease := parameters_of_replay hnew (show start.replay [] = some start from rfl)
  obtain ⟨supplied, -, -, -, -, -, hadmission, -⟩ := Reducer.applyBlockDetailed_eq_ok_iff.1 happly
  obtain ⟨hheight, -, hcheck, hsupply⟩ := admission_eq_ok hadmission
  obtain ⟨s, hscan, -⟩ := Reducer.scan_of_apply hindexed happly
  obtain ⟨supplied', -, -, -, hsupply', hadvance, -⟩ := ScanReducer.applyBlock_eq_ok hscan
  have hsame : supplied' = supplied := Except.ok.inj (hsupply'.symm.trans hsupply)
  subst hsame
  rw [show next.heads = _ from congrArg (fun s ↦ s.ledger.heads) hadvance] at hhead
  have hstarted := hinv.startBlock hheight hsupply
  -- a head carried to a transaction of the block stands before it
  have hcarried : ∀ {before : List Transaction} {Y : Head}, Y.terminalHeight = none →
      (reducer.scan.ledger.startBlock reducer.scan.rules.parameters block.height
        supplied').Carries reducer.rules block.height before nameId Y →
      ∃ p, Y.producer.height = p ∧
        StandsBefore start reducer chain block evidence before nameId Y p := by
    intro before Y hactive hcarries
    rcases hcarries with ⟨hY, hunspent⟩ | ⟨first, transaction, rest, rfl, hoperates, hY, hunspent⟩
    · obtain ⟨previous, hprevious, rfl, -⟩ := Ledger.of_getElem?_startBlock hY
      have hexpire : previous.expire block.height = previous := by
        rw [Head.expire] at hactive ⊢
        split
        · rename_i hexpired
          rw [if_pos hexpired] at hactive
          exact absurd hactive (by simp)
        · rfl
      rw [hexpire] at hactive hunspent ⊢
      rcases h previous hprevious with ⟨p, -, hstands⟩ | ⟨last, p, x, rfl, -⟩
      · exact ⟨p, (heads_of_standsSince hnew hstands hreplay).1, Or.inl ⟨hstands, hunspent⟩⟩
      · exact absurd hactive (by simp [Head.endedAt])
    · refine ⟨block.height, (Ledger.producer_of_operates hoperates hY).1, Or.inr ⟨rfl, first,
        transaction, rest, rfl, (installs_iff hindexed hadmission).2 ⟨hoperates, hY⟩, hunspent⟩⟩
  rcases hstarted.origin hcheck hhead with ⟨hterminal, hkept⟩ | ⟨hactive, hcarries⟩ |
    ⟨last, before, transaction, after, hended, hsplit, hactive, hcarries, hlast, hspent, hnot⟩
  · -- terminal from the start of the block: before it already, or because its lease is over
    obtain ⟨previous, hprevious, rfl, -⟩ := Ledger.of_getElem?_startBlock hkept
    rw [Head.expire] at hterminal ⊢
    split
    · rename_i hexpired
      rcases h previous hprevious with ⟨p, -, hstands⟩ | ⟨last, p, x, rfl, -⟩
      · obtain ⟨hproducer, -, tip, htip, -⟩ := heads_of_standsSince hnew hstands hreplay
        obtain ⟨habove, hledger⟩ := hinv.atTip htip hheight
        have hval := hledger.expiry_val hprevious
        have hlive := (hledger.head nameId previous hprevious).active hexpired.1
        rw [show reducer.scan.rules.parameters = parameters from hparameters, hproducer] at hval
        have hlast : previous.expiryHeight = block.height := by
          have hle := hexpired.2
          rw [Fin.le_def] at hle
          rw [Fin.lt_def] at hlive
          exact Fin.ext (by omega)
        refine .ended previous p block.height (by rw [Head.endedAt, ← hlast]) ⟨chain, block,
          evidence, [], reducer, rfl, hreplay, rfl, Or.inl ⟨hstands, ?_⟩⟩
        rw [hlease, ← hval, hlast]
      · exact absurd hexpired.1 (by simp [Head.endedAt])
    · rename_i hexpired
      rw [if_neg hexpired] at hterminal
      rcases h previous hprevious with ⟨p, hactive, -⟩ | ⟨last, p, x, hended, hin⟩
      · exact absurd hactive hterminal
      · exact .ended last p x hended (hin.concat (block, evidence))
  · obtain ⟨p, -, hstands | ⟨rfl, first, transaction, rest, hsplit, hinstalls, hunspent⟩⟩ :=
      hcarried hactive hcarries
    · exact .stands p hactive (hstands.1.concat hstands.2)
    · exact .stands block.height hactive (standsSince_of_installs hreplay hsplit hinstalls hunspent)
  · obtain ⟨p, hproducer, hstands⟩ := hcarried hactive hcarries
    refine .ended last p block.height hended ⟨chain, block, evidence, [], reducer, rfl, hreplay,
      rfl, Or.inr ⟨?_, before, transaction, after, hsplit, hstands,
        (releases_iff hindexed hadmission).2 ⟨hspent, hnot⟩⟩⟩
    rw [hsplit] at hcheck
    obtain ⟨bound, -, hbefore⟩ := hstarted.applyTransactions_before hcheck
    have hlive := (hbefore.head nameId last hlast).active hactive
    have hval := hbefore.expiry_val hlast
    rw [show reducer.scan.rules.parameters = parameters from hparameters, hproducer] at hval
    rw [hlease, ← hval]
    exact hlive

/-- **Every stored head comes from the chain.** The induction is on the blocks from the last one. -/
theorem fromChain_of_replay (hnew : Reducer.new parameters parent verifier = .ok start)
    (hreplay : start.replay chain = some last) (hhead : last.heads[nameId]? = some head) :
    FromChain start chain nameId head := by
  induction chain using List.reverseRecOn generalizing last head with
  | nil =>
    cases hreplay
    obtain ⟨valid, rfl⟩ := Reducer.new_eq_ok_iff.1 hnew
    exact absurd hhead (by simp [Records.empty])
  | append_singleton chain block ih =>
    rw [Reducer.replay_append, Option.bind_eq_some_iff] at hreplay
    obtain ⟨reducer, hreducer, haccept⟩ := hreplay
    obtain ⟨outcome, happly⟩ := Reducer.accept_eq_some_iff.1 haccept
    exact FromChain.concat hnew hreducer (fun head hhead ↦ ih hreducer hhead) happly hhead

/-- **Blocks within the cooldown.** -/
theorem Reducer.heads_of_replay_cooldown {first last : Reducer}
    {later : List (Block × List ReferencedCommit)} {tip : U32}
    (hindexed : first.toRecords.Indexed) (hinv : first.scan.Inv)
    (hfirst : ∃ tip, first.tipHeight = some tip) (hhead : first.heads[nameId]? = some head)
    (hterminal : head.terminalHeight = some x) (hreplay : first.replay later = some last)
    (htip : last.tipHeight = some tip)
    (hlt : tip.val < x.val + first.rules.parameters.cooldownBlocks.val) :
    last.heads[nameId]? = some head := by
  induction later using List.reverseRecOn generalizing last tip with
  | nil =>
    rw [← Option.some.inj hreplay]
    exact hhead
  | append_singleton later block ih =>
    rw [replay_append, Option.bind_eq_some_iff] at hreplay
    obtain ⟨previous, hprevious, haccept⟩ := hreplay
    obtain ⟨outcome, happly⟩ := accept_eq_some_iff.1 haccept
    have hinv' := inv_replay hindexed hinv hprevious
    obtain ⟨tip₀, htip₀⟩ := hfirst
    obtain ⟨tip', htip', -⟩ := tip_le_of_replay hindexed hinv htip₀ hprevious
    obtain ⟨s, hscan, -⟩ := scan_of_apply (indexed_replay hindexed hprevious) happly
    obtain ⟨supplied, hheight, -, -, -, hadvance, -⟩ := ScanReducer.applyBlock_eq_ok hscan
    have hblock : block.1.height = tip :=
      Option.some.inj ((congrArg ScanReducer.tipHeight hadvance).symm.trans htip)
    have hnext := (hinv'.atTip htip' hheight).1
    rw [hblock] at hnext
    have hkept := ih hprevious htip' (by omega)
    refine hinv'.block_cooldown hscan hkept hterminal ?_
    rw [hblock, show previous.scan.rules = first.rules from rules_replay hprevious]
    exact hlt

/-- A head that stands before a transaction of an admitted block is stored there, active, as long
as its lease runs. -/
theorem StandsBefore.stored {before after : List Transaction}
    {supplied : OrderedMap CommitRef Commitment}
    (h : StandsBefore start reducer chain block evidence before nameId head p)
    (hnew : Reducer.new parameters parent verifier = .ok start)
    (hreplay : start.replay chain = some reducer)
    (hadmission : admission reducer.rules.parameters reducer.nextHeight reducer.previousHash
      reducer.commits block evidence = .ok supplied)
    (hblock : block.transactions = before ++ after)
    (hlease : block.height.val < p.val + parameters.leaseBlocks.val) :
    head.terminalHeight = none ∧
      ((reducer.ledger.startBlock reducer.rules.parameters block.height supplied).applyTransactions
        reducer.rules block.height before).2.2.heads[nameId]? = some head := by
  have hindexed := Reducer.indexed_replay (Reducer.indexed_new hnew) hreplay
  have hinv := Reducer.inv_replay (Reducer.indexed_new hnew) (Reducer.inv_new hnew) hreplay
  have hparameters := parameters_of_replay hnew hreplay
  obtain ⟨hheight, -, hcheck, hsupply⟩ := admission_eq_ok hadmission
  have hstarted := hinv.startBlock hheight hsupply
  rw [hblock] at hcheck
  have hchecked := checkTransactions_left hcheck
  rcases h with ⟨hstands, hunspent⟩ | ⟨rfl, first, transaction, rest, rfl, hinstalls, hunspent⟩
  · obtain ⟨hproducer, hactive, tip, htip, hhead⟩ := heads_of_standsSince hnew hstands hreplay
    obtain ⟨habove, hledger⟩ := hinv.atTip htip hheight
    have hhead := hhead (by omega)
    have hval := hledger.expiry_val hhead
    rw [show reducer.scan.rules.parameters = parameters from hparameters, hproducer] at hval
    refine ⟨hactive, hstarted.applyTransactions_unspent hchecked ?_ hactive hunspent⟩
    refine Ledger.getElem?_startBlock_active supplied hhead hactive ?_
    rw [Fin.lt_def, hval]
    exact hlease
  · obtain ⟨hoperates, hhead⟩ := (installs_iff hindexed hadmission).1 hinstalls
    obtain ⟨hproducer, hindex⟩ := Ledger.producer_of_operates hoperates hhead
    obtain ⟨bound, hbound, hbefore⟩ := hstarted.applyTransactions_before hchecked
    have hactive := hbefore.installed_active hbound hhead hproducer hindex
    exact ⟨hactive, hstarted.applyTransactions_installed hchecked hhead hactive hunspent⟩

/-- **The block in which a head ends.** -/
theorem heads_of_ends (hnew : Reducer.new parameters parent verifier = .ok start)
    (hreplay : start.replay chain = some reducer) {outcome : BlockOutcome}
    (happly : reducer.applyBlockDetailed block evidence = some (.ok outcome, next))
    (hends : (StandsSince start chain nameId head p ∧
        block.height.val = p.val + parameters.leaseBlocks.val) ∨
      (block.height.val < p.val + parameters.leaseBlocks.val ∧
        ∃ before transaction after, block.transactions = before ++ transaction :: after ∧
          StandsBefore start reducer chain block evidence before nameId head p ∧
          Releases reducer block evidence before transaction nameId head)) :
    next.heads[nameId]? = some (head.endedAt block.height) := by
  have hindexed := Reducer.indexed_replay (Reducer.indexed_new hnew) hreplay
  have hinv := Reducer.inv_replay (Reducer.indexed_new hnew) (Reducer.inv_new hnew) hreplay
  have hparameters := parameters_of_replay hnew hreplay
  obtain ⟨supplied, -, -, -, -, -, hadmission, -⟩ := Reducer.applyBlockDetailed_eq_ok_iff.1 happly
  obtain ⟨hheight, -, hcheck, hsupply⟩ := admission_eq_ok hadmission
  obtain ⟨s, hscan, -⟩ := Reducer.scan_of_apply hindexed happly
  obtain ⟨supplied', -, -, -, hsupply', hadvance, -⟩ := ScanReducer.applyBlock_eq_ok hscan
  have hsame : supplied' = supplied := Except.ok.inj (hsupply'.symm.trans hsupply)
  subst hsame
  rw [show next.heads = _ from congrArg (fun s ↦ s.ledger.heads) hadvance]
  have hstarted := hinv.startBlock hheight hsupply
  have hterminal : (head.endedAt block.height).terminalHeight ≠ none := by simp [Head.endedAt]
  rcases hends with ⟨hstands, hlease⟩ | ⟨hlease, before, transaction, after, hblock, hstands,
    hreleases⟩
  · -- the lease is over at the start of the block
    obtain ⟨hproducer, hactive, tip, htip, hhead⟩ := heads_of_standsSince hnew hstands hreplay
    obtain ⟨habove, hledger⟩ := hinv.atTip htip hheight
    have hhead := hhead (by omega)
    have hval := hledger.expiry_val hhead
    rw [show reducer.scan.rules.parameters = parameters from hparameters, hproducer] at hval
    have hexpiry : head.expiryHeight = block.height := Fin.ext (by omega)
    have hended : head.expire block.height = head.endedAt block.height := by
      rw [Head.expire, if_pos ⟨hactive, hexpiry.le⟩, Head.endedAt, ← hexpiry]
    have hkept : (head.endedAt block.height).released reducer.rules.parameters block.height =
        false := by
      have hpos := reducer.rules.valid.cooldown_pos
      simp only [Head.released, Head.endedAt, Option.any_some, decide_eq_false_iff_not]
      omega
    have hstart := Ledger.getElem?_startBlock reducer.ledger reducer.rules.parameters block.height
      supplied' nameId
    rw [show reducer.ledger.heads[nameId]? = some head from hhead, Option.map_some, hended,
      Option.filter_some_pos (by simp [hkept])] at hstart
    exact hstarted.applyTransactions_terminal hcheck hstart hterminal
  · obtain ⟨hactive, hhead⟩ := hstands.stored hnew hreplay hadmission hblock hlease
    obtain ⟨hspent, hnot⟩ := (releases_iff hindexed hadmission).1 hreleases
    rw [hblock] at hcheck ⊢
    obtain ⟨previous, hchecked, hbefore⟩ := hstarted.applyTransactions_between hcheck
    obtain ⟨hbound, -, hrest⟩ := checkTransactions_cons hchecked
    have hafter := (hbefore.headEffect hbound hhead).spent hactive hnot hspent
    have hlater := Ledger.Inv.applyTransactions_terminal hrest (hbefore.applyTransaction hbound)
      hafter hterminal
    rw [Ledger.applyTransactions_append]
    exact hlater

/-- **A head that ended is there until its cooldown is over.** -/
theorem heads_of_endedIn (hnew : Reducer.new parameters parent verifier = .ok start)
    (hended : EndedIn start chain nameId head p x) (hreplay : start.replay chain = some last)
    {tip : U32} (htip : last.tipHeight = some tip)
    (hlt : tip.val < x.val + parameters.cooldownBlocks.val) :
    last.heads[nameId]? = some (head.endedAt x) := by
  obtain ⟨earlier, block, evidence, later, reducer, rfl, hearlier, rfl, hends⟩ := hended
  rw [parameters_of_replay hnew (show start.replay [] = some start from rfl)] at hends
  rw [Reducer.replay_append_list, hearlier, Option.bind_some, Reducer.replay_cons_eq_some_iff]
    at hreplay
  obtain ⟨first, haccept, hrest⟩ := hreplay
  obtain ⟨outcome, happly⟩ := Reducer.accept_eq_some_iff.1 haccept
  have hhead := heads_of_ends hnew hearlier happly hends
  have hreplayed : start.replay (earlier ++ [(block, evidence)]) = some first := by
    rw [Reducer.replay_append, hearlier]
    exact haccept
  obtain ⟨supplied, -, -, -, -, o, -, -, -, hclose, -⟩ :=
    Reducer.applyBlockDetailed_eq_ok_iff.1 happly
  have hfirst : first.tipHeight = some block.height := congrArg Reducer.tipHeight hclose
  refine Reducer.heads_of_replay_cooldown
    (Reducer.indexed_replay (Reducer.indexed_new hnew) hreplayed)
    (Reducer.inv_replay (Reducer.indexed_new hnew) (Reducer.inv_new hnew) hreplayed) ⟨_, hfirst⟩
    hhead rfl hrest htip ?_
  rw [parameters_of_replay hnew hreplayed]
  exact hlt

end Chain

/-! ### Resolution -/

/-- **Resolution is a fact about the chain.** In every state that calls reach from a new reducer, at
its tip: a name resolves Active with a head exactly when a surviving block accepted that head, no
later transaction has spent it and its lease runs; it resolves Cooldown with a head exactly when
that is such a head, ended by its lease or by a spend without a REFRESH, less than a cooldown ago;
and it resolves Missing exactly when there is no such head. -/
theorem resolution_from_chain {parameters : Parameters} {parent : Bytes32}
    {verifier : ProofVerifier} {start reducer : Reducer} {calls : List Call} {replies : List Reply}
    (hnew : Reducer.new parameters parent verifier = .ok start)
    (hrun : start.run calls = some (replies, reducer)) {tip : U32}
    (htip : reducer.tipHeight = some tip) {name : Name} {nameId : NameId}
    (hname : name.id = .ok nameId) :
    (∀ head, reducer.resolveAuthenticated name tip = .ok ⟨.active, some head.ua, some head⟩ ↔
      ∃ p, StandsSince start (survivors calls replies) nameId head p ∧
        tip.val < p.val + parameters.leaseBlocks.val) ∧
    (∀ head, reducer.resolveAuthenticated name tip = .ok ⟨.cooldown, none, some head⟩ ↔
      ∃ last p x, head = { last with terminalHeight := some x } ∧
        EndedIn start (survivors calls replies) nameId last p x ∧
        tip.val < x.val + parameters.cooldownBlocks.val) ∧
    (reducer.resolveAuthenticated name tip = .ok ⟨.missing, none, none⟩ ↔
      ¬ ∃ head p, (StandsSince start (survivors calls replies) nameId head p ∧
          tip.val < p.val + parameters.leaseBlocks.val) ∨
        ∃ x, EndedIn start (survivors calls replies) nameId head p x ∧
          tip.val < x.val + parameters.cooldownBlocks.val) := by
  have hreached : FromNew parameters parent verifier reducer := ⟨start, calls, replies, hnew, hrun⟩
  obtain ⟨fresh, hreplay, hreducer, -⟩ := Survives.of_run hnew hrun
  have htip' : fresh.tipHeight = some tip :=
    (congrArg Reducer.tipHeight hreducer).symm.trans htip
  have hheads : fresh.heads = reducer.heads := (congrArg (fun r ↦ r.heads) hreducer).symm
  have hparameters : reducer.rules.parameters = parameters :=
    (congrArg (fun r ↦ r.rules.parameters) hreducer).trans (parameters_of_replay hnew hreplay)
  have hinv := hreached.inv
  rw [ScanReducer.Inv, show reducer.scan.tipHeight = some tip from htip] at hinv
  -- what the chain says about the head of the name, both ways
  have hstored : ∀ head, reducer.heads[nameId]? = some head →
      (head.terminalHeight = none ∧ ∃ p, StandsSince start (survivors calls replies) nameId head p ∧
        tip.val < p.val + parameters.leaseBlocks.val) ∨
      ∃ last p x, head = last.endedAt x ∧
        EndedIn start (survivors calls replies) nameId last p x ∧
        tip.val < x.val + parameters.cooldownBlocks.val := by
    intro head hhead
    have hheadInv := hinv.2.head nameId head hhead
    rw [show reducer.scan.rules.parameters = parameters from hparameters] at hheadInv
    rw [← hheads] at hhead
    rcases fromChain_of_replay hnew hreplay hhead with ⟨p, hactive, hstands⟩ |
      ⟨last, p, x, rfl, hin⟩
    · obtain ⟨hproducer, -⟩ := heads_of_standsSince hnew hstands hreplay
      have hlease := hheadInv.active hactive
      rw [Fin.lt_def, Parameters.expiry_eq_ok_iff.1 hheadInv.expiry, hproducer] at hlease
      exact Or.inl ⟨hactive, p, hstands, hlease⟩
    · exact Or.inr ⟨last, p, x, rfl, hin, (hheadInv.terminal x rfl).2.2.2⟩
  have hstands : ∀ head p, StandsSince start (survivors calls replies) nameId head p →
      tip.val < p.val + parameters.leaseBlocks.val →
      head.terminalHeight = none ∧ reducer.heads[nameId]? = some head := by
    intro head p hstands hlease
    obtain ⟨-, hactive, tip', htip'', hhead⟩ := heads_of_standsSince hnew hstands hreplay
    rw [htip', Option.some.injEq] at htip''
    subst htip''
    exact ⟨hactive, hheads ▸ hhead hlease⟩
  have hended : ∀ last p x, EndedIn start (survivors calls replies) nameId last p x →
      tip.val < x.val + parameters.cooldownBlocks.val →
      reducer.heads[nameId]? = some (last.endedAt x) := fun last p x hin hlt ↦
    hheads ▸ heads_of_endedIn hnew hin hreplay htip' hlt
  have hactive_ne : ∀ head : Head, ∀ x, (head.endedAt x).terminalHeight ≠ none := by
    simp [Head.endedAt]
  rw [Reducer.resolveAuthenticated_tip htip]
  refine ⟨fun head ↦ ⟨fun hresolve ↦ ?_, fun hstanding ↦ ?_⟩,
    fun head ↦ ⟨fun hresolve ↦ ?_, fun hending ↦ ?_⟩, fun hresolve ↦ ?_, fun hnone ↦ ?_⟩
  · rcases hcurrent : reducer.heads[nameId]? with - | current
    · rw [Reducer.resolve_of_none hname hcurrent] at hresolve
      exact absurd hresolve (by simp)
    · rw [Reducer.resolve_eq hreached.inv htip hname hcurrent] at hresolve
      split at hresolve
      · rename_i hactive
        rw [Except.ok.injEq, Resolution.mk.injEq, Option.some.injEq, Option.some.injEq] at hresolve
        obtain ⟨-, -, rfl⟩ := hresolve
        rcases hstored current hcurrent with ⟨-, hp⟩ | ⟨last, p, x, rfl, -⟩
        · exact hp
        · exact absurd hactive (hactive_ne last x)
      · exact absurd hresolve (by simp)
  · obtain ⟨p, hp, hlease⟩ := hstanding
    obtain ⟨hactive, hhead⟩ := hstands head p hp hlease
    rw [Reducer.resolve_eq hreached.inv htip hname hhead, if_pos hactive]
  · rcases hcurrent : reducer.heads[nameId]? with - | current
    · rw [Reducer.resolve_of_none hname hcurrent] at hresolve
      exact absurd hresolve (by simp)
    · rw [Reducer.resolve_eq hreached.inv htip hname hcurrent] at hresolve
      split at hresolve
      · exact absurd hresolve (by simp)
      · rename_i hterminal
        rw [Except.ok.injEq, Resolution.mk.injEq, Option.some.injEq] at hresolve
        obtain ⟨-, -, rfl⟩ := hresolve
        rcases hstored current hcurrent with ⟨hactive, -⟩ | hin
        · exact absurd hactive hterminal
        · exact hin
  · obtain ⟨last, p, x, hhead, hin, hlt⟩ := hending
    rw [Reducer.resolve_eq hreached.inv htip hname (hended last p x hin hlt),
      if_neg (hactive_ne last x), hhead]
    rfl
  · rintro ⟨head, p, ⟨hp, hlease⟩ | ⟨x, hin, hlt⟩⟩
    · obtain ⟨hactive, hhead⟩ := hstands head p hp hlease
      rw [Reducer.resolve_eq hreached.inv htip hname hhead, if_pos hactive] at hresolve
      exact absurd hresolve (by simp)
    · rw [Reducer.resolve_eq hreached.inv htip hname (hended head p x hin hlt),
        if_neg (hactive_ne head x)] at hresolve
      exact absurd hresolve (by simp)
  · rcases hcurrent : reducer.heads[nameId]? with - | current
    · rw [Reducer.resolve_of_none hname hcurrent]
    · rcases hstored current hcurrent with ⟨-, p, hp, hlease⟩ | ⟨last, p, x, -, hin, hlt⟩
      · exact absurd ⟨current, p, Or.inl ⟨hp, hlease⟩⟩ hnone
      · exact absurd ⟨last, p, Or.inr ⟨x, hin, hlt⟩⟩ hnone

end Resolution

namespace Sample

theorem resolution_from_chain_alice : ∃ replies reducer nameId head p,
    start.run [.applyBlock block0 [], .applyBlock block1 []] = some (replies, reducer) ∧
    reducer.tipHeight = some 1 ∧ alice.id = .ok nameId ∧
    reducer.resolveAuthenticated alice 1 = .ok ⟨.active, some head.ua, some head⟩ ∧
    StandsSince start (survivors [.applyBlock block0 [], .applyBlock block1 []] replies) nameId head
      p ∧ 1 < p.val + parameters.leaseBlocks.val := by
  have hevaluated : ((start.run [.applyBlock block0 [], .applyBlock block1 []]).bind fun result ↦
      (result.2.resolveAuthenticated alice 1).toOption.bind fun resolution ↦
        alice.id.toOption.map fun _ ↦ (result.2.tipHeight, resolution.lifecycle)) =
      some (some 1, .active) := by decide +kernel
  simp only [Option.bind_eq_some_iff, Option.map_eq_some_iff, Prod.mk.injEq,
    Except.toOption_eq_some_iff] at hevaluated
  obtain ⟨⟨replies, reducer⟩, hrun, resolution, hresolve, nameId, hname, htip, hactive⟩ :=
    hevaluated
  have hreached : FromNew parameters parent verifier reducer :=
    ⟨start, _, replies, new_eq_start, hrun⟩
  obtain ⟨-, -, head, -, -, -, rfl⟩ := Reducer.of_resolves_active hreached.inv hresolve hactive
  obtain ⟨p, hstands, hlease⟩ :=
    ((resolution_from_chain new_eq_start hrun htip hname).1 head).1 hresolve
  exact ⟨replies, reducer, nameId, head, p, hrun, htip, hname, hresolve, hstands, hlease⟩

end Sample

end CoppiceNames
