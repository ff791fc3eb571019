import CoppiceNames.Reducer.Lineage

/-!
# The lifecycle of a stored head

The lifecycle of a head is read off its lease at the queried height, without writing anything; a
block, on the other hand, marks the leases that ended and deletes the heads that were released. The
two agree: what a stored head looks like at a later height does not change while blocks without
transactions carry the state there (`viewAt_start`).
-/

open Std hiding not_le not_lt

namespace CoppiceNames

section Lifecycle

variable [Primitives]

/-- What a client sees of a name: its lifecycle and its address. -/
def Resolution.view (resolution : Resolution) : Lifecycle × Option CanonicalUa :=
  (resolution.lifecycle, resolution.ua)

/-- What a client sees of a stored head at a height. -/
def viewAt (parameters : Parameters) (height : U32) : Option Head → Lifecycle × Option CanonicalUa
  | none => (.missing, none)
  | some head =>
    match head.lifecycle height parameters with
    | .missing => (.missing, none)
    | .active => (.active, some head.ua)
    | .cooldown => (.cooldown, none)

/-- Blocks without transactions, one for each hash. -/
def emptyBlocks (height : U32) (previousHash : Bytes32) :
    List Bytes32 → List (Block × List ReferencedCommit)
  | [] => []
  | hash :: hashes => (⟨height, hash, previousHash, []⟩, []) :: emptyBlocks (height + 1) hash hashes

namespace Head

variable (head : Head) {next height : U32}

/-- Marking an ended lease does not change when the head is terminal at later heights. -/
theorem terminalAt_expire (hle : next ≤ height) :
    (head.expire next).terminalAt height = head.terminalAt height := by
  rw [expire]
  split
  · rename_i hended
    rw [terminalAt, terminalAt, hended.1, Option.some_or, Option.none_or,
      if_pos (hended.2.trans hle)]
  · rfl

theorem lifecycle_expire (parameters : Parameters) (hle : next ≤ height) :
    (head.expire next).lifecycle height parameters = head.lifecycle height parameters := by
  rw [lifecycle, lifecycle, isClaimable, isClaimable, head.terminalAt_expire hle]

/-- A head that is deleted at a height is missing from there on. -/
theorem lifecycle_of_released {parameters : Parameters} (hle : next ≤ height)
    (hreleased : head.released parameters next = true) :
    head.lifecycle height parameters = .missing := by
  rw [released, Option.any_eq_true] at hreleased
  obtain ⟨terminal, hterminal, hover⟩ := hreleased
  have hat : head.terminalAt height = some terminal := by
    rw [terminalAt, hterminal, Option.some_or]
  have hclaimable : head.isClaimable height parameters = true := by
    rw [Fin.le_def] at hle
    rw [decide_eq_true_eq] at hover
    rw [isClaimable, hat, Option.any_some, decide_eq_true_eq]
    omega
  rw [lifecycle, hat]
  dsimp only
  rw [if_pos hclaimable]

end Head

/-- **The block-start phases of a block do not change what is seen at that height or later.** -/
theorem viewAt_start (parameters : Parameters) {next height : U32} (hle : next ≤ height)
    (current : Option Head) :
    viewAt parameters height ((current.map fun head ↦ head.expire next).filter fun head ↦
      !head.released parameters next) = viewAt parameters height current := by
  rcases current with - | head
  · rfl
  rw [Option.map_some]
  rcases hreleased : (head.expire next).released parameters next with - | -
  · -- the head is kept
    rw [Option.filter_some_pos (by rw [hreleased]; rfl), viewAt, viewAt,
      head.lifecycle_expire parameters hle]
    have hua : (head.expire next).ua = head.ua := by
      rw [Head.expire]
      split <;> rfl
    rw [hua]
  · -- the head is deleted, and a client would not have seen it any more
    have hmissing := (head.expire next).lifecycle_of_released hle hreleased
    rw [head.lifecycle_expire parameters hle] at hmissing
    rw [Option.filter_some_neg (by rw [hreleased]; rfl), viewAt, viewAt, hmissing]

namespace Reducer

variable {reducer : Reducer} {name : Name} {nameId : NameId} {tip height : U32}

theorem view_resolve (reducer : Reducer) (hname : name.id = .ok nameId) (height : U32) :
    (reducer.resolve name height).view =
      viewAt reducer.rules.parameters height reducer.heads[nameId]? := by
  rw [resolve, hname]
  dsimp only
  rcases reducer.heads[nameId]? with - | head
  · rfl
  · dsimp only
    rw [viewAt]
    rcases head.lifecycle height reducer.rules.parameters with - | - | - <;> rfl

/-- **A block without transactions** is accepted at the next height, and leaves what is seen at that
height or later as it was. -/
theorem apply_empty (hindexed : reducer.toRecords.Indexed) (hinv : reducer.scan.Inv)
    {block : Block} (hempty : block.transactions = [])
    (hheight : some block.height = reducer.nextHeight)
    (hprevious : block.prevHash = reducer.previousHash) :
    ∃ next, reducer.accept (block, []) = some next ∧ next.toRecords.Indexed ∧ next.scan.Inv ∧
      next.rules = reducer.rules ∧ next.tipHeight = some block.height ∧
      next.previousHash = block.hash ∧
      ∀ (nameId : NameId) (height : U32), block.height ≤ height →
        viewAt reducer.rules.parameters height next.heads[nameId]? =
          viewAt reducer.rules.parameters height reducer.heads[nameId]? := by
  have hadmission : admission reducer.rules.parameters reducer.nextHeight reducer.previousHash
      reducer.commits block [] = .ok ∅ := by
    refine admission_of_checks hheight hprevious ?_ rfl
    rw [hempty]
    rfl
  rcases applyBlockDetailed_spec hindexed block [] with
    ⟨e, hrefused, -⟩ | ⟨outcome, o, s, happly, htracks, hscan, -⟩
  · rw [hadmission] at hrefused
    exact absurd hrefused (by simp)
  refine ⟨_, accept_eq_some_iff.2 ⟨outcome, happly⟩, htracks.indexed, hinv.applyBlock hscan, rfl,
    rfl, rfl, fun nameId height hle ↦ ?_⟩
  obtain ⟨supplied, -, -, -, -, hadvance, -⟩ := ScanReducer.applyBlock_eq_ok hscan
  have hheads : (reducer.closeBlock block o).heads[nameId]? =
      ((reducer.ledger.startBlock reducer.rules.parameters block.height
        supplied).applyTransactions reducer.rules block.height block.transactions).2.2.heads[
          nameId]? := congrArg (fun s : ScanReducer ↦ s.ledger.heads[nameId]?) hadvance
  rw [hheads, hempty, Ledger.applyTransactions, Ledger.getElem?_startBlock]
  exact viewAt_start reducer.rules.parameters hle reducer.heads[nameId]?

/-- **Empty blocks up to a height** are accepted, and the name looks there as it was predicted. -/
theorem replay_empty (hindexed : reducer.toRecords.Indexed) (hinv : reducer.scan.Inv)
    (htip : reducer.tipHeight = some tip) (hashes : List Bytes32)
    (hlength : tip.val + hashes.length = height.val) :
    ∃ last, reducer.replay (emptyBlocks (tip + 1) reducer.previousHash hashes) = some last ∧
      last.scan.Inv ∧ last.rules = reducer.rules ∧ last.tipHeight = some height ∧
      ∀ nameId : NameId, viewAt reducer.rules.parameters height last.heads[nameId]? =
        viewAt reducer.rules.parameters height reducer.heads[nameId]? := by
  induction hashes generalizing reducer tip with
  | nil =>
    have hsame : tip = height := Fin.ext hlength
    rw [hsame] at htip
    exact ⟨reducer, rfl, hinv, rfl, htip, fun _ ↦ rfl⟩
  | cons hash hashes ih =>
    rw [List.length_cons] at hlength
    have hnext : (tip + 1).val = tip.val + 1 := by
      have hlt := height.isLt
      rw [Fin.val_add, Fin.val_one, Nat.mod_eq_of_lt (by omega)]
    have hheight : some (tip + 1) = reducer.nextHeight := by
      have hinv' := hinv
      rw [ScanReducer.Inv, show reducer.scan.tipHeight = some tip from htip] at hinv'
      rw [show reducer.nextHeight = _ from hinv'.1]
      exact (U32.checkedAdd_eq_some_iff.2 hnext).symm
    obtain ⟨next, haccept, hindexed', hinv', hrules, htip', hprevious, hview⟩ :=
      apply_empty hindexed hinv
        (show (⟨tip + 1, hash, reducer.previousHash, []⟩ : Block).transactions = [] from rfl)
        hheight rfl
    obtain ⟨last, hreplay, hlast, hrules', hlastTip, hviews⟩ :=
      ih hindexed' hinv' htip' (by dsimp only; omega)
    refine ⟨last, replay_cons_eq_some_iff.2 ⟨next, haccept, ?_⟩, hlast, hrules'.trans hrules,
      hlastTip, fun nameId ↦ ?_⟩
    · rw [hprevious] at hreplay
      exact hreplay
    · rw [← hrules, hviews nameId, hrules]
      refine hview nameId height ?_
      show tip + 1 ≤ height
      rw [Fin.le_def]
      omega

end Reducer

/-- **Height-derived lifecycle equals replayed lifecycle.** -/
theorem lifecycle_eq_replayed {parameters : Parameters} {parent : Bytes32}
    {verifier : ProofVerifier} {reducer : Reducer} {t : U32}
    (h : FromNew parameters parent verifier reducer) (htip : reducer.tipHeight = some t)
    (name : Name) :
    (∀ (height : U32) (hashes : List Bytes32), t.val + hashes.length = height.val →
      ∃ last, reducer.replay (emptyBlocks (t + 1) reducer.previousHash hashes) = some last ∧
        last.tipHeight = some height ∧
        last.resolveAuthenticated name height = .ok (last.resolve name height) ∧
        (last.resolve name height).lifecycle = (reducer.resolve name height).lifecycle ∧
        (last.resolve name height).ua = (reducer.resolve name height).ua) ∧
    (∀ nameId head, name.id = .ok nameId → reducer.heads[nameId]? = some head →
      (reducer.resolve name t).lifecycle ≠ .missing ∧
      ((reducer.resolve name t).lifecycle = .active ↔ head.terminalHeight = none)) ∧
    ((reducer.resolve name t).lifecycle = .missing ↔
      ∀ nameId, name.id = .ok nameId → reducer.heads[nameId]? = none) := by
  have hstored : ∀ nameId head, name.id = .ok nameId → reducer.heads[nameId]? = some head →
      (reducer.resolve name t).lifecycle ≠ .missing ∧
      ((reducer.resolve name t).lifecycle = .active ↔ head.terminalHeight = none) := by
    intro nameId head hname hhead
    rw [Reducer.resolve_eq h.inv htip hname hhead]
    by_cases hactive : head.terminalHeight = none
    · simp [hactive]
    · simp [hactive]
  refine ⟨fun height hashes hlength ↦ ?_, hstored, ?_⟩
  · obtain ⟨last, hreplay, hinv, hrules, hlast, hview⟩ :=
      Reducer.replay_empty h.indexed h.inv htip hashes hlength
    refine ⟨last, hreplay, hlast, Reducer.resolveAuthenticated_tip hlast, ?_⟩
    rcases hname : name.id with e | nameId
    · simp only [Reducer.resolve, hname, and_self]
    · have hsame : (last.resolve name height).view = (reducer.resolve name height).view := by
        rw [last.view_resolve hname, reducer.view_resolve hname, hrules, hview]
      exact Prod.ext_iff.1 hsame
  · constructor
    · intro hmissing nameId hname
      rcases hhead : reducer.heads[nameId]? with - | head
      · rfl
      · exact absurd hmissing (hstored nameId head hname hhead).1
    · intro hnone
      rw [Reducer.resolve]
      rcases hname : name.id with e | nameId
      · rfl
      · dsimp only
        rw [hnone nameId hname]

end Lifecycle

namespace Sample

/-- Four empty blocks after the small chain: the head that `block2` spent is gone, as was predicted
at the tip. -/
theorem lifecycle_eq_replayed_alice : ∃ reducer last, FromNew parameters parent verifier reducer ∧
    reducer.tipHeight = some 2 ∧
    reducer.replay (emptyBlocks 3 reducer.previousHash (List.replicate 4 parent)) = some last ∧
    last.tipHeight = some 6 ∧
    (last.resolve alice 6).lifecycle = (reducer.resolve alice 6).lifecycle ∧
    (reducer.resolve alice 2).lifecycle = .cooldown ∧
    (reducer.resolve alice 6).lifecycle = .missing := by
  have hrun : ((start.run [.applyBlock block0 [], .applyBlock block1 [],
      .applyBlock block2 []]).map fun result ↦
      (result.2.tipHeight, (result.2.resolve alice 2).lifecycle,
        (result.2.resolve alice 6).lifecycle)) = some (some 2, .cooldown, .missing) := by
    decide +kernel
  rw [Option.map_eq_some_iff] at hrun
  obtain ⟨⟨replies, reducer⟩, hreducer, hresult⟩ := hrun
  rw [Prod.mk.injEq, Prod.mk.injEq] at hresult
  obtain ⟨htip, hbefore, hafter⟩ := hresult
  have hreached : FromNew parameters parent verifier reducer :=
    ⟨start, _, replies, new_eq_start, hreducer⟩
  obtain ⟨last, hreplay, hlast, -, hlifecycle, -⟩ :=
    (lifecycle_eq_replayed hreached htip alice).1 6 (List.replicate 4 parent) rfl
  exact ⟨reducer, last, hreached, htip, hreplay, hlast, hlifecycle, hbefore, hafter⟩

end Sample

end CoppiceNames
