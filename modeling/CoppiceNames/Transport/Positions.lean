import CoppiceNames.Library.Checked
import CoppiceNames.Library.Numbering
import CoppiceNames.Transport.Inspection

/-!
# Positions of actions

`transport.rs` finds the tree position of an action in two ways. With a post-block tree size it adds
up the actions of the block and subtracts; with a pre-block tree size it counts forward. Both count
through the actions of the block in order, as groups under their transaction indexes.
-/

namespace CoppiceNames

section Positions

variable [Core]

/-- The number of actions of a transaction, without the check of its width. -/
def CoreTransactionContext.actions (transaction : CoreTransactionContext) : ℕ :=
  transaction.ironwoodEffects.commitments.length

/-- The effects of a transaction have as many nullifiers as commitments. -/
def CoreTransactionContext.Balanced (transaction : CoreTransactionContext) : Prop :=
  transaction.ironwoodEffects.nullifiers.length = transaction.ironwoodEffects.commitments.length

/-- The actions of a block in groups. -/
def actionGroups (transactions : List CoreTransactionContext) : Groups U32 :=
  transactions.map fun transaction ↦ (transaction.txIndex, transaction.actions)

variable {transaction : CoreTransactionContext} {transactions : List CoreTransactionContext}
  {position txIndex actionIndex p : U32}

/-! ### The steps of the loops -/

theorem checkEffects_eq_ok (h : transaction.Balanced) : checkEffects transaction = .ok () :=
  if_neg (not_not.2 h)

theorem actionCount_eq_ok_iff {count : U32} :
    actionCount transaction = .ok count ↔ count.val = transaction.actions := by
  rw [actionCount]
  split
  · rename_i hnone
    refine ⟨fun h ↦ absurd h (by simp), fun h ↦ ?_⟩
    rw [show U32.ofUsize transaction.ironwoodEffects.commitments.length = some count from
      U32.ofUsize_eq_some_iff.2 h] at hnone
    exact absurd hnone (by simp)
  · rename_i found hfound
    rw [Except.ok.injEq, ← Option.some_inj, ← hfound, U32.ofUsize_eq_some_iff]
    rfl

theorem addPosition_eq_ok_iff {a b c : U32} : addPosition a b = .ok c ↔ c.val = a.val + b.val := by
  rw [addPosition, ← U32.checkedAdd_eq_some_iff]
  split
  · rename_i hnone
    simp [hnone]
  · rename_i found hfound
    simp [hfound]

/-! ### The loops -/

/-- The two counting loops differ in a check that balanced effects pass. -/
theorem countPosition_eq_actionPosition (hbalanced : ∀ t ∈ transactions, t.Balanced) :
    countPosition position txIndex actionIndex transactions =
      actionPosition position txIndex actionIndex transactions := by
  induction transactions generalizing position with
  | nil => rfl
  | cons transaction rest ih =>
    obtain ⟨hfirst, hrest⟩ := List.forall_mem_cons.1 hbalanced
    rw [countPosition, actionPosition, checkEffects_eq_ok hfirst]
    simp only [ih hrest]
    rfl

/-- The total of a block. -/
theorem totalActions_eq_ok (total : U32) (hbalanced : ∀ t ∈ transactions, t.Balanced)
    (hfits : total.val + (actionGroups transactions).total ≤ 4294967295) :
    ∃ sum, totalActions total transactions = .ok sum ∧
      sum.val = total.val + (actionGroups transactions).total := by
  induction transactions generalizing total with
  | nil => exact ⟨total, rfl, rfl⟩
  | cons transaction rest ih =>
    obtain ⟨hfirst, hrest⟩ := List.forall_mem_cons.1 hbalanced
    have hsplit : (actionGroups (transaction :: rest)).total =
        transaction.actions + (actionGroups rest).total := Groups.total_cons _ _
    rw [hsplit] at hfits ⊢
    have hcount : actionCount transaction = .ok ⟨transaction.actions, by omega⟩ :=
      actionCount_eq_ok_iff.2 rfl
    have hadd : addPosition total ⟨transaction.actions, by omega⟩ =
        .ok ⟨total.val + transaction.actions, by omega⟩ :=
      addPosition_eq_ok_iff.2 rfl
    obtain ⟨sum, hsum, hval⟩ := ih ⟨total.val + transaction.actions, by omega⟩ hrest
      (by rw [Nat.add_assoc]; exact hfits)
    refine ⟨sum, ?_, by rw [hval, Nat.add_assoc]⟩
    rw [totalActions, checkEffects_eq_ok hfirst, hcount, ← hsum]
    show (addPosition total ⟨transaction.actions, by omega⟩ >>= fun sum ↦ totalActions sum rest) = _
    rw [hadd]
    rfl

/-- **Counting forward finds the number of the action.** -/
theorem actionPosition_eq_ok_iff (hbalanced : ∀ t ∈ transactions, t.Balanced)
    (hfits : position.val + (actionGroups transactions).total ≤ 4294967295) :
    actionPosition position txIndex actionIndex transactions = .ok p ↔
      Groups.number position.val (actionGroups transactions) txIndex actionIndex.val =
        some p.val := by
  induction transactions generalizing position with
  | nil => simp [actionPosition, actionGroups, Groups.number]
  | cons transaction rest ih =>
    obtain ⟨hfirst, hrest⟩ := List.forall_mem_cons.1 hbalanced
    have hsplit : (actionGroups (transaction :: rest)).total =
        transaction.actions + (actionGroups rest).total := Groups.total_cons _ _
    rw [hsplit] at hfits
    have hcount : actionCount transaction = .ok ⟨transaction.actions, by omega⟩ :=
      actionCount_eq_ok_iff.2 rfl
    have hadd : addPosition position ⟨transaction.actions, by omega⟩ =
        .ok ⟨position.val + transaction.actions, by omega⟩ :=
      addPosition_eq_ok_iff.2 rfl
    rw [actionPosition, checkEffects_eq_ok hfirst, hcount]
    show (if transaction.txIndex = txIndex then
        if actionIndex ≥ (⟨transaction.actions, by omega⟩ : U32) then .error .invalidActionPosition
        else addPosition position actionIndex
      else addPosition position ⟨transaction.actions, by omega⟩ >>= fun next ↦
        actionPosition next txIndex actionIndex rest) = Except.ok p ↔
      (if transaction.txIndex = txIndex then
        if actionIndex.val < transaction.actions then some
          (position.val + actionIndex.val) else none
      else Groups.number (position.val + transaction.actions) (actionGroups rest) txIndex
        actionIndex.val) = some p.val
    split
    · by_cases hexists : actionIndex.val < transaction.actions
      · rw [if_neg (not_le.2 (Fin.lt_def.2 hexists)), if_pos hexists, addPosition_eq_ok_iff,
          Option.some_inj]
        exact eq_comm
      · rw [if_pos (Fin.le_def.2 (Nat.le_of_not_lt hexists)), if_neg hexists]
        simp
    · rw [hadd]
      exact ih hrest (by rw [Nat.add_assoc]; exact hfits)

/-! ### Two computations of one position -/

theorem exists_actionPosition_iff (hbalanced : ∀ t ∈ transactions, t.Balanced)
    (hindexes : (transactions.map CoreTransactionContext.txIndex).Nodup)
    (hfits : position.val + (actionGroups transactions).total ≤ 4294967295) :
    (∃ p, actionPosition position txIndex actionIndex transactions = .ok p) ↔
      ∃ t ∈ transactions, t.txIndex = txIndex ∧ actionIndex.val < t.actions := by
  have hkeys : ((actionGroups transactions).map Prod.fst).Nodup := by
    rw [actionGroups, List.map_map]
    exact hindexes
  have hitem : (txIndex, actionIndex.val) ∈ (actionGroups transactions).items ↔
      ∃ t ∈ transactions, t.txIndex = txIndex ∧ actionIndex.val < t.actions := by
    simp only [Groups.mem_items_iff, actionGroups, List.mem_map, exists_exists_and_eq_and]
  rw [← hitem, ← Groups.exists_number_iff hkeys position.val]
  constructor
  · rintro ⟨p, hp⟩
    exact ⟨p.val, (actionPosition_eq_ok_iff hbalanced hfits).1 hp⟩
  · rintro ⟨n, hn⟩
    have hlt := (Groups.number_mem_range hn).2
    exact ⟨⟨n, by omega⟩, (actionPosition_eq_ok_iff hbalanced hfits).2 hn⟩

/-- **Positions of actions.** On a block of distinct, balanced transactions whose actions fit, the
two computations agree, they succeed exactly for the actions there are, and over these in order the
positions are the consecutive ones from the pre-block tree size on. -/
theorem action_positions_agree {transactions : List CoreTransactionContext}
    (hindexes : (transactions.map CoreTransactionContext.txIndex).Nodup)
    (hbalanced : ∀ t ∈ transactions, t.Balanced) {block : CoreBlockContext}
    {positioned : CorePositionedBlockContext} (hblock : block.transactions = transactions)
    (hpositioned : positioned.transactions = transactions)
    (hfits : positioned.preIronwoodTreeSize.val + (transactions.map fun t ↦ t.actions).sum ≤
      2 ^ 32 - 1)
    (hpost : block.treeSize.val =
      positioned.preIronwoodTreeSize.val + (transactions.map fun t ↦ t.actions).sum) :
    (∀ txIndex actionIndex, authenticatedActionPosition block txIndex actionIndex =
      positionedActionPosition positioned txIndex actionIndex) ∧
    (∀ txIndex actionIndex,
      (∃ p, positionedActionPosition positioned txIndex actionIndex = .ok p) ↔
        ∃ t ∈ transactions, t.txIndex = txIndex ∧ actionIndex.val < t.actions) ∧
    (transactions.flatMap fun t ↦ (List.range t.actions).map fun index ↦
        (positionedActionPosition positioned t.txIndex (Fin.ofNat _ index)).toOption.map Fin.val) =
      (List.range' positioned.preIronwoodTreeSize.val
        (transactions.map fun t ↦ t.actions).sum).map some := by
  have htotal : (actionGroups transactions).total = (transactions.map fun t ↦ t.actions).sum := by
    rw [Groups.total, actionGroups, List.map_map]
    rfl
  rw [← htotal] at hfits hpost ⊢
  subst hblock
  refine ⟨fun txIndex actionIndex ↦ ?_, fun txIndex actionIndex ↦ ?_, ?_⟩
  · -- the total that is subtracted leaves the pre-block size
    obtain ⟨sum, hsum, hval⟩ := totalActions_eq_ok 0 hbalanced (by
      rw [Fin.val_zero, Nat.zero_add]
      omega)
    rw [Fin.val_zero, Nat.zero_add] at hval
    have hstart : U32.checkedSub block.treeSize sum = some positioned.preIronwoodTreeSize := by
      rw [U32.checkedSub_eq_some_iff, Fin.le_def]
      omega
    rw [authenticatedActionPosition, positionedActionPosition, hpositioned, hsum]
    dsimp only [bind, Except.bind]
    rw [hstart]
    exact countPosition_eq_actionPosition hbalanced
  · rw [positionedActionPosition, hpositioned]
    exact exists_actionPosition_iff hbalanced hindexes (by omega)
  · have hkeys : ((actionGroups block.transactions).map Prod.fst).Nodup := by
      rw [actionGroups, List.map_map]
      exact hindexes
    rw [← Groups.map_number_items hkeys, Groups.items, actionGroups, List.flatMap_map,
      List.map_flatMap]
    refine List.flatMap_congr fun t ht ↦ ?_
    rw [List.map_map]
    refine List.map_congr_left fun index hindex ↦ ?_
    have hitem : (t.txIndex, index) ∈ (actionGroups block.transactions).items :=
      Groups.mem_items_iff.2
        ⟨(t.txIndex, t.actions), List.mem_map_of_mem ht, rfl, List.mem_range.1 hindex⟩
    obtain ⟨n, hn⟩ :=
      (Groups.exists_number_iff hkeys positioned.preIronwoodTreeSize.val).2 hitem
    have hrange := (Groups.number_mem_range hn).2
    -- an index that is numbered fits its width
    have hwidth : index < t.actions := List.mem_range.1 hindex
    have hpart : t.actions ≤ (actionGroups block.transactions).total :=
      List.le_sum_of_mem (List.mem_map_of_mem (List.mem_map_of_mem ht))
    have hindexVal : (Fin.ofNat 4294967296 index).val = index := Nat.mod_eq_of_lt (by omega)
    have hposition : positionedActionPosition positioned t.txIndex (Fin.ofNat _ index) =
        .ok ⟨n, by omega⟩ := by
      rw [positionedActionPosition, hpositioned, actionPosition_eq_ok_iff hbalanced (by omega),
        hindexVal, hn]
    rw [hposition]
    exact hn.symm

end Positions

/-! ### A block with sparse indexes -/

namespace Sample

/-- A transaction of the given number of actions. -/
def transactionOf (txIndex : U32) (actions : ℕ) : CoreTransactionContext where
  txIndex := txIndex
  txid := Vector.replicate 32 2
  ironwoodEffects :=
    ⟨List.replicate actions (field 1).bytes, List.replicate actions (field 2).bytes⟩
  validatedFullTransaction := none

/-- Three actions under sparse indexes, with an empty transaction between them. -/
def sparseTransactions : List CoreTransactionContext :=
  [transactionOf 2 1, transactionOf 5 0, transactionOf 9 2]

def sparseBlock : CoreBlockContext where
  height := 101
  blockHash := Vector.replicate 32 11
  prevBlockHash := Vector.replicate 32 10
  transactions := sparseTransactions
  treeSize := 5

def sparsePositionedBlock : CorePositionedBlockContext where
  height := 101
  blockHash := Vector.replicate 32 11
  prevBlockHash := Vector.replicate 32 10
  transactions := sparseTransactions
  preIronwoodTreeSize := 2

theorem action_positions_agree_sparse :
    (∀ txIndex actionIndex, authenticatedActionPosition sparseBlock txIndex actionIndex =
      positionedActionPosition sparsePositionedBlock txIndex actionIndex) ∧
    (∀ txIndex actionIndex,
      (∃ p, positionedActionPosition sparsePositionedBlock txIndex actionIndex = .ok p) ↔
        ∃ t ∈ sparseTransactions, t.txIndex = txIndex ∧ actionIndex.val < t.actions) ∧
    (sparseTransactions.flatMap fun t ↦ (List.range t.actions).map fun index ↦
        (positionedActionPosition sparsePositionedBlock t.txIndex (Fin.ofNat _ index)).toOption.map
          Fin.val) =
      (List.range' 2 3).map some :=
  action_positions_agree (by decide +kernel)
    (fun t ht ↦ by
      obtain rfl | rfl | rfl : t = transactionOf 2 1 ∨ t = transactionOf 5 0 ∨
          t = transactionOf 9 2 := by
        simpa [sparseTransactions] using ht
      all_goals rfl)
    rfl rfl (by decide +kernel) (by decide +kernel)

end Sample

end CoppiceNames
