import CoppiceNames.Reducer.Effects

/-!
# One operation per name and epoch

In an epoch a name accepts at most one REVEAL or REFRESH. Once one is accepted, the name has a head
produced in that epoch, and it keeps such a head to the end of the epoch: a REFRESH needs a
predecessor of an earlier epoch, a REVEAL needs a name without a head, and a head is released only a
cooldown — one epoch — after it was produced. `Accounted` ties the number of accepted operations so
far to the head of the name.
-/

open Std hiding not_le not_lt

namespace CoppiceNames

section Epochs

variable [Primitives]

/-- The transaction carries a REVEAL or REFRESH of the name, and it was accepted. -/
def Transaction.operates (transaction : Transaction) (decision : OperationDecision)
    (nameId : NameId) : Bool :=
  match transaction.operation with
  | some (.reveal op) => decide (op.name.id = .ok nameId ∧ decision.accepted = some .reveal)
  | some (.refresh op) => decide (op.name.id = .ok nameId ∧ decision.accepted = some .refresh)
  | _ => false

/-- The number of accepted REVEALs and REFRESHes of the name in a block. -/
def acceptedCount (nameId : NameId) (transactions : List Transaction)
    (decisions : List OperationDecision) : ℕ :=
  (transactions.zip decisions).countP fun entry ↦ entry.1.operates entry.2 nameId

/-- The number of accepted REVEALs and REFRESHes of the name at heights of an epoch, over the blocks
of a run. -/
def Reducer.acceptedInEpoch (reducer : Reducer) (nameId : NameId) (epoch : U32) :
    List (Block × List ReferencedCommit) → ℕ
  | [] => 0
  | block :: blocks =>
    match reducer.applyBlockDetailed block.1 block.2 with
    | some (.ok outcome, next) =>
      (if reducer.rules.parameters.epoch block.1.height = .ok epoch then
        acceptedCount nameId block.1.transactions outcome.decisions else 0) +
        next.acceptedInEpoch nameId epoch blocks
    | _ => 0

/-- No operation so far; or one, and the name has a head produced in the epoch. -/
def Accounted (epoch : U32) (n : ℕ) (current : Option Head) : Prop :=
  n = 0 ∨ n = 1 ∧ ∃ head, current = some head ∧ head.producerEpoch = epoch

omit [Primitives] in
/-- Epochs do not decrease with the height. -/
theorem Parameters.epoch_mono {parameters : Parameters} {a b e e' : U32}
    (ha : parameters.epoch a = .ok e) (hb : parameters.epoch b = .ok e')
    (hle : a ≤ b) : e ≤ e' := by
  have h₁ := (epoch_eq_ok_iff.1 ha).2
  have h₂ := (epoch_eq_ok_iff.1 hb).2
  rw [Fin.le_def] at hle ⊢
  rw [h₁, h₂]
  exact Nat.div_le_div_right (by omega)

omit [Primitives] in
/-- Two heights of one epoch are less than an epoch apart. -/
theorem Parameters.lt_of_same_epoch {parameters : Parameters} (hvalid : parameters.Valid)
    {a b e : U32} (ha : parameters.epoch a = .ok e) (hb : parameters.epoch b = .ok e) :
    b.val < a.val + parameters.epochBlocks.val := by
  obtain ⟨hle, h₁⟩ := epoch_eq_ok_iff.1 ha
  obtain ⟨hle', h₂⟩ := epoch_eq_ok_iff.1 hb
  have hpos := hvalid.epoch_pos
  have hlow : e.val * parameters.epochBlocks.val ≤ a.val - parameters.activationHeight.val := by
    rw [h₁]
    exact Nat.div_mul_le_self _ _
  have hhigh : b.val - parameters.activationHeight.val <
      (e.val + 1) * parameters.epochBlocks.val := by
    rw [h₂]
    exact Nat.lt_mul_of_div_lt (Nat.lt_succ_self _) hpos
  rw [Fin.le_def] at hle hle'
  rw [Nat.add_mul, one_mul] at hhigh
  omega

namespace Ledger

variable {ledger : Ledger} {rules : Rules} {height : U32} {transaction : Transaction}
  {nameId : NameId} {epoch : U32} {n : ℕ}

theorem afterSpend_producerEpoch (before : Ledger) (head : Head) :
    (before.afterSpend height transaction nameId head).producerEpoch = head.producerEpoch := by
  rw [afterSpend]
  split <;> rfl

/-- The head of a name that the operation leaves alone stays accounted for. -/
theorem accounted_of_same (h : Accounted epoch n ledger.heads[nameId]?) :
    Accounted epoch n
      (ledger.heads[nameId]?.map (ledger.afterSpend height transaction nameId)) := by
  rcases h with hzero | ⟨hone, head, hhead, hepoch⟩
  · exact Or.inl hzero
  · refine Or.inr ⟨hone, ledger.afterSpend height transaction nameId head, ?_, ?_⟩
    · rw [hhead, Option.map_some]
    · rw [afterSpend_producerEpoch, hepoch]

/-- **One transaction in the epoch.** -/
theorem applyTransaction_accounted (transaction : Transaction)
    (hepoch : rules.parameters.epoch height = .ok epoch)
    (h : Accounted epoch n ledger.heads[nameId]?) :
    Accounted epoch
      (n + if transaction.operates (ledger.applyTransaction rules height transaction).1 nameId
        then 1 else 0)
      (ledger.applyTransaction rules height transaction).2.2.heads[nameId]? := by
  rw [applyTransaction]
  dsimp only
  rw [getElem?_terminate]
  -- an installed head is of this epoch, and it is the first of the name in it
  have hinstall : ∀ {id : NameId} {head : Head}, id = nameId → head.producerEpoch = epoch →
      n = 0 → Accounted epoch (n + 1) ((ledger.heads.insert id head)[nameId]?.map
        (ledger.afterSpend height transaction nameId)) := by
    intro id head hid hproducer hzero
    rw [hid, ExtTreeMap.getElem?_insert_self, Option.map_some, hzero]
    exact Or.inr ⟨rfl, _, rfl, by rw [afterSpend_producerEpoch, hproducer]⟩
  rcases applyOperation_cases ledger rules height transaction with
    ⟨op, id, head, hop, hresult, heq⟩ | ⟨op, id, head, hop, hresult, heq⟩ |
      ⟨commitment, hop, heq⟩ | ⟨clause, heq⟩
  · obtain ⟨hname, hfree, -, -, -, action, epoch', expiry, -, hepoch', -, rfl⟩ :=
      revealed_eq_ok hresult
    rw [hepoch, Except.ok.injEq] at hepoch'
    rw [heq, Transaction.operates, hop]
    by_cases hid : id = nameId
    · have hzero : n = 0 := by
        rcases h with hzero | ⟨-, current, hcurrent, -⟩
        · exact hzero
        · rw [hid, hcurrent] at hfree
          exact absurd hfree (by simp)
      rw [if_pos (by simp [hname, hid])]
      exact hinstall hid hepoch'.symm hzero
    · rw [if_neg (by simp [hname, hid]), OrderedMap.getElem?_insert_of_ne hid]
      exact accounted_of_same h
  · obtain ⟨hname, predecessor, hpredecessor, -, -, -, action, epoch', expiry, -, -, -, hepoch',
      hlater, -, rfl⟩ := refreshed_eq_ok hresult
    rw [hepoch, Except.ok.injEq] at hepoch'
    rw [heq, Transaction.operates, hop]
    by_cases hid : id = nameId
    · have hzero : n = 0 := by
        rcases h with hzero | ⟨-, current, hcurrent, hproducer⟩
        · exact hzero
        · -- the predecessor would be of an earlier epoch
          rw [hid, hcurrent, Option.some.injEq] at hpredecessor
          rw [← hpredecessor, hproducer, hepoch'] at hlater
          exact absurd hlater (lt_irrefl _)
      rw [if_pos (by simp [hname, hid])]
      exact hinstall hid hepoch'.symm hzero
    · rw [if_neg (by simp [hname, hid]), OrderedMap.getElem?_insert_of_ne hid]
      exact accounted_of_same h
  · rw [heq, Transaction.operates, hop]
    exact accounted_of_same h
  · rw [heq, if_neg]
    · exact accounted_of_same h
    · rw [Transaction.operates]
      rcases transaction.operation with - | (commitment | op | op) <;> simp

/-- The transactions of a block in the epoch. -/
theorem applyTransactions_accounted (transactions : List Transaction)
    (hepoch : rules.parameters.epoch height = .ok epoch)
    (h : Accounted epoch n ledger.heads[nameId]?) :
    Accounted epoch
      (n + acceptedCount nameId transactions
        (ledger.applyTransactions rules height transactions).1)
      (ledger.applyTransactions rules height transactions).2.2.heads[nameId]? := by
  induction transactions generalizing ledger n with
  | nil => exact h
  | cons transaction rest ih =>
    have hfirst := applyTransaction_accounted transaction hepoch h
    have hrest := ih hfirst
    rw [applyTransactions, acceptedCount]
    dsimp only
    rw [List.zip_cons_cons, List.countP_cons, Nat.add_comm (List.countP _ _), ← Nat.add_assoc]
    exact hrest

/-- Block start in the epoch: a head of the epoch is not released in it. -/
theorem Inv.startBlock_accounted {bound : ℕ} {tip : U32} (hvalid : rules.parameters.Valid)
    (hinv : ledger.Inv rules.parameters tip bound)
    (hepoch : rules.parameters.epoch height = .ok epoch)
    (supplied : OrderedMap CommitRef Commitment) (h : Accounted epoch n ledger.heads[nameId]?)
    (hnext : height.val = tip.val + 1) :
    Accounted epoch n (ledger.startBlock rules.parameters height supplied).heads[nameId]? := by
  rcases h with hzero | ⟨hone, head, hhead, hproducer⟩
  · exact Or.inl hzero
  · refine Or.inr ⟨hone, head.expire height, ?_, ?_⟩
    · have hhead' := hinv.head nameId head hhead
      have hsame := hhead'.epoch
      rw [hproducer] at hsame
      have hnear := Parameters.lt_of_same_epoch hvalid hsame hepoch
      rw [getElem?_startBlock, hhead, Option.map_some, Option.filter_some_pos]
      rw [Bool.not_eq_true', Head.released, Option.any_eq_false]
      intro x hx
      rw [decide_eq_false_iff_not, not_le, hvalid.cooldown_eq]
      -- a terminal height is at least the height of the producer
      have hle : head.producer.height.val ≤ x.val := by
        rw [Head.expire] at hx
        split at hx
        · have hlease := Parameters.expiry_eq_ok_iff.1 hhead'.expiry
          rw [← Option.some.inj hx]
          omega
        · exact (hhead'.terminal x hx).1
      omega
    · rw [Head.expire]
      split <;> exact hproducer

end Ledger

/-- The count over a run, tied to the state reached. -/
def Counted (reducer : Reducer) (nameId : NameId) (epoch : U32) (n : ℕ) : Prop :=
  Accounted epoch n reducer.heads[nameId]? ∨ n = 1 ∧ ∃ tip later, reducer.tipHeight = some tip ∧
    reducer.rules.parameters.epoch tip = .ok later ∧ epoch < later

namespace Counted

variable {reducer next : Reducer} {nameId : NameId} {epoch : U32} {n : ℕ}

theorem le_one (h : Counted reducer nameId epoch n) : n ≤ 1 := by
  rcases h with (hzero | ⟨hone, -⟩) | ⟨hone, -⟩
  · omega
  · omega
  · omega

/-- **One block.** -/
theorem block (h : Counted reducer nameId epoch n) (hindexed : reducer.toRecords.Indexed)
    (hinv : reducer.scan.Inv) {block : Block × List ReferencedCommit} {outcome : BlockOutcome}
    (happly : reducer.applyBlockDetailed block.1 block.2 = some (.ok outcome, next)) :
    Counted next nameId epoch
      (n + if reducer.rules.parameters.epoch block.1.height = .ok epoch then
        acceptedCount nameId block.1.transactions outcome.decisions else 0) := by
  obtain ⟨s, hscan, -, hdecisions, -⟩ := Reducer.scan_of_apply hindexed happly
  obtain ⟨supplied, hheight, -, -, hsupply, hadvance, hdecided, -⟩ :=
    ScanReducer.applyBlock_eq_ok hscan
  have hstarted := hinv.startBlock hheight hsupply
  have hrules : next.rules = reducer.rules := congrArg ScanReducer.rules hadvance
  have htip : next.tipHeight = some block.1.height := congrArg ScanReducer.tipHeight hadvance
  have hheads : next.heads[nameId]? = ((reducer.ledger.startBlock reducer.rules.parameters
      block.1.height supplied).applyTransactions reducer.rules block.1.height
        block.1.transactions).2.2.heads[nameId]? :=
    congrArg (fun s : ScanReducer ↦ s.ledger.heads[nameId]?) hadvance
  -- the height has an epoch, not below that of the tip
  obtain ⟨current, hcurrent⟩ : ∃ current,
      reducer.rules.parameters.epoch block.1.height = .ok current := by
    have hactivation : reducer.rules.parameters.activationHeight ≤ block.1.height :=
      hstarted.activation_le
    rw [Parameters.epoch, if_neg (not_lt.2 hactivation)]
    exact ⟨_, rfl⟩
  have hbefore : ∀ tip, reducer.tipHeight = some tip → block.1.height.val = tip.val + 1 ∧
      reducer.ledger.Inv reducer.rules.parameters tip 4294967296 := by
    intro tip htip
    have hinv' := hinv
    rw [ScanReducer.Inv, show reducer.scan.tipHeight = some tip from htip] at hinv'
    rw [show reducer.scan.nextHeight = _ from hinv'.1] at hheight
    exact ⟨U32.checkedAdd_eq_some_iff.1 hheight.symm, hinv'.2⟩
  have hlater : ∀ tip later, reducer.tipHeight = some tip →
      reducer.rules.parameters.epoch tip = .ok later → later ≤ current := by
    intro tip later htip hepoch
    refine Parameters.epoch_mono hepoch hcurrent ?_
    have hnext := (hbefore tip htip).1
    rw [Fin.le_def]
    omega
  by_cases hsame : reducer.rules.parameters.epoch block.1.height = .ok epoch
  · rw [if_pos hsame]
    rw [hcurrent, Except.ok.injEq] at hsame
    subst hsame
    have haccounted : Accounted current n reducer.heads[nameId]? := by
      rcases h with h | ⟨-, tip, later, htip, hepoch, hlt⟩
      · exact h
      · exact absurd (hlater tip later htip hepoch) (not_le.2 hlt)
    -- without a tip there are no heads to carry over
    have hstart : Accounted current n (reducer.ledger.startBlock reducer.rules.parameters
        block.1.height supplied).heads[nameId]? := by
      rcases htip : reducer.tipHeight with - | tip
      · rcases haccounted with hzero | ⟨-, head, hhead, -⟩
        · exact Or.inl hzero
        · rw [ScanReducer.Inv, show reducer.scan.tipHeight = none from htip] at hinv
          rw [show reducer.heads = ∅ from congrArg Ledger.heads hinv.2] at hhead
          exact absurd hhead (by simp)
      · obtain ⟨hnext, hledger⟩ := hbefore tip htip
        exact hledger.startBlock_accounted reducer.rules.valid hcurrent supplied haccounted hnext
    have hafter := Ledger.applyTransactions_accounted block.1.transactions hcurrent hstart
    rw [← hheads] at hafter
    rw [hdecisions, hdecided]
    exact Or.inl hafter
  · rw [if_neg hsame, Nat.add_zero]
    have hne : current ≠ epoch := by
      rintro rfl
      exact hsame hcurrent
    rcases h with (hzero | ⟨hone, head, hhead, hproducer⟩) | ⟨hone, tip, later, htip', hepoch, hlt⟩
    · exact Or.inl (Or.inl hzero)
    · -- the head was produced in the epoch, so the block lies in a later one
      refine Or.inr ⟨hone, block.1.height, current, htip, by rw [hrules]; exact hcurrent, ?_⟩
      rcases htip' : reducer.tipHeight with - | tip
      · rw [ScanReducer.Inv, show reducer.scan.tipHeight = none from htip'] at hinv
        rw [show reducer.heads = ∅ from congrArg Ledger.heads hinv.2] at hhead
        exact absurd hhead (by simp)
      · obtain ⟨hnext, hledger⟩ := hbefore tip htip'
        have hhead' := hledger.head nameId head hhead
        have hle := hhead'.producer_le
        have hmono := Parameters.epoch_mono hhead'.epoch hcurrent (by
          rw [Fin.le_def] at hle ⊢
          omega)
        rw [hproducer] at hmono
        exact hmono.lt_of_ne (Ne.symm hne)
    · exact Or.inr ⟨hone, block.1.height, current, htip, by rw [hrules]; exact hcurrent,
        hlt.trans_le (hlater tip later htip' hepoch)⟩

/-- **A whole run.** -/
theorem run (h : Counted reducer nameId epoch n) (hindexed : reducer.toRecords.Indexed)
    (hinv : reducer.scan.Inv) {blocks : List (Block × List ReferencedCommit)} {final : Reducer}
    (hreplay : reducer.replay blocks = some final) :
    n + reducer.acceptedInEpoch nameId epoch blocks ≤ 1 := by
  induction blocks generalizing reducer n with
  | nil => exact h.le_one
  | cons block blocks ih =>
    obtain ⟨next, haccept, hrest⟩ := Reducer.replay_cons_eq_some_iff.1 hreplay
    obtain ⟨outcome, happly⟩ := Reducer.accept_eq_some_iff.1 haccept
    have hcall : reducer.call (.applyBlock block.1 block.2) =
        some (.applied (.ok outcome), next) := by
      rw [Reducer.call, happly]
      rfl
    obtain ⟨s, hscan, -⟩ := Reducer.scan_of_apply hindexed happly
    have hle := ih (h.block hindexed hinv happly) (Reducer.indexed_call hindexed hcall)
      (hinv.applyBlock hscan) hrest
    rw [Reducer.acceptedInEpoch, happly]
    dsimp only
    omega

end Counted

/-- **At most one accepted name operation per name and epoch.** -/
theorem accepted_in_epoch_le_one {parameters : Parameters} {parent : Bytes32}
    {verifier : ProofVerifier} {start final : Reducer}
    (hnew : Reducer.new parameters parent verifier = .ok start)
    {blocks : List (Block × List ReferencedCommit)} (hreplay : start.replay blocks = some final)
    (nameId : NameId) (epoch : U32) : start.acceptedInEpoch nameId epoch blocks ≤ 1 := by
  have hcounted : Counted start nameId epoch 0 := Or.inl (Or.inl rfl)
  have hle := hcounted.run (Reducer.indexed_new hnew) (Reducer.inv_new hnew) hreplay
  omega

end Epochs

namespace Sample

/-- In the small chain `alice` has one accepted operation in epoch zero. -/
theorem accepted_in_epoch_le_one_alice : ∃ final nameId,
    start.replay [(block0, []), (block1, []), (block2, [])] = some final ∧
    alice.id = .ok nameId ∧
    start.acceptedInEpoch nameId 0 [(block0, []), (block1, []), (block2, [])] ≤ 1 := by
  have hreplay : (start.replay [(block0, []), (block1, []), (block2, [])]).isSome = true := by
    decide +kernel
  have hid : alice.id.toOption.isSome = true := by decide +kernel
  obtain ⟨final, hfinal⟩ := Option.isSome_iff_exists.1 hreplay
  obtain ⟨nameId, hname⟩ : ∃ nameId, alice.id = .ok nameId := by
    rcases halice : alice.id with e | nameId
    · rw [halice] at hid
      exact absurd hid (by simp [Except.toOption])
    · exact ⟨nameId, rfl⟩
  exact ⟨final, nameId, hfinal, hname, accepted_in_epoch_le_one new_eq_start hfinal nameId 0⟩

end Sample

end CoppiceNames
