import CoppiceNames.Checker.Model
import CoppiceNames.Protocol.Windows
import CoppiceNames.Reducer.Reachable

/-!
# Checker and reducer, phase by phase

The checker's state matches a ledger when every lookup agrees. Every phase of a block up to its
operations keeps that, and the two reach the same verdicts: values, schedule, admission, the scans
at the start of a block, REVEAL and REFRESH. Nothing here depends on the order of a dictionary; the
compactions are reported in the order of the names because the checker sorts its keys.

Heights are unbounded for the checker and 32 bits wide for the reducer. Wherever a lease from the
block's height on fits 32 bits, no checked sum of the reducer fails that the checker would accept.
-/

open Std hiding not_le not_lt

namespace CoppiceNames

namespace Checker

/-! ### Values -/

theorem fieldHex_parseField (bytes : Bytes32) : fieldHex (parseField bytes) = bytes := by
  have hbytes : leBytes 32 (leNat bytes.toList) = bytes.toList := by
    have h := leBytes_leNat bytes.toList
    rwa [Vector.length_toList] at h
  apply Vector.toList_inj.1
  rw [fieldHex, parseField, Vector.toList_mk, hbytes]

theorem parseField_inj {a b : Bytes32} : parseField a = parseField b ↔ a = b :=
  ⟨fun h ↦ by rw [← fieldHex_parseField a, h, fieldHex_parseField], congrArg parseField⟩

theorem parseField_element_inj {a b : FieldElement} :
    parseField a.bytes = parseField b.bytes ↔ a = b := by
  rw [parseField_inj, FieldElement.ext_iff]

theorem parseName_asStr (name : Name) : parseName name.asStr = .ok name := by
  have hbare : (if lit ".zec" <:+ name.asStr.bytes then
      name.asStr.bytes.take (name.asStr.bytes.length - 4) else name.asStr.bytes) = name.bytes :=
    if_neg name.not_zec_suffix
  rw [parseName]
  simp only [hbare]
  exact dif_neg name.wellFormed

theorem validateParameters_eq_ok_iff {parameters : Parameters} :
    validateParameters parameters = .ok () ↔ parameters.Valid := by
  rw [validateParameters]
  constructor
  · intro h
    split at h
    · exact absurd h (by simp)
    rename_i hvalid
    obtain ⟨h₁, h₂, h₃, h₄, h₅, h₆⟩ := not_not.1 hvalid
    exact ⟨h₁, h₂, h₃, h₄, h₅, Fin.ext h₆⟩
  · intro h
    refine if_neg (not_not.2 ⟨h.window_pos, h.window_le, h.maturity_lt, h.ttl_lt, h.epoch_lt, ?_⟩)
    rw [h.cooldown_eq]

/-- Name identifiers are ordered as their bytes are. -/
theorem compare_nameId (a b : NameId) :
    compare a b = compare a.bytes.toList b.bytes.toList :=
  Vector.compareLex_eq_compareLex_toList

/-- A map of COMMITs as the checker keeps it. -/
def Same (commits : Dict CommitRef ℕ) (pending : OrderedMap CommitRef Commitment) : Prop :=
  ∀ reference : CommitRef,
    commits.get? reference = pending[reference]?.map fun commitment ↦ parseField commitment.bytes

theorem Same.insert {commits : Dict CommitRef ℕ} {pending : OrderedMap CommitRef Commitment}
    (h : Same commits pending) (reference : CommitRef) (commitment : Commitment) :
    Same (commits.set reference (parseField commitment.bytes))
      (pending.insert reference commitment) := by
  intro other
  rw [Dict.get?_set, ExtTreeMap.getElem?_insert]
  by_cases hother : other = reference
  · rw [if_pos hother, if_pos (by rw [hother]; exact ReflCmp.compare_self)]
    rfl
  · rw [if_neg hother, if_neg fun heq ↦ hother (LawfulEqOrd.eq_of_compare heq).symm, h other]

theorem Same.any_ne {commits : Dict CommitRef ℕ} {pending : OrderedMap CommitRef Commitment}
    (h : Same commits pending) (reference : CommitRef) (commitment : Commitment) :
    ((commits.get? reference).any fun value ↦ decide (value ≠ parseField commitment.bytes)) =
      pending[reference]?.any fun value ↦ decide (value ≠ commitment) := by
  rw [h reference]
  rcases pending[reference]? with - | value
  · rfl
  · have hbytes : value.bytes = commitment.bytes ↔ value = commitment :=
      ⟨fun heq ↦ by rcases value; rcases commitment; cases heq; rfl, congrArg Commitment.bytes⟩
    rw [Option.map_some, Option.any_some, Option.any_some, decide_eq_decide, ne_eq, ne_eq,
      parseField_inj, hbytes]

section Matching

variable [Primitives]

theorem nameId_eq_ok {name : Name} {id : NameId} (h : name.id = .ok id) :
    nameId name = .ok id := by
  -- both searches stop at the first counter with a nonzero candidate
  have hsearch : ∀ counters : List ℕ,
      (counters.findSome? fun counter ↦
        if h : Primitives.wideField (lit "CoppiceNmName") (name.idInput counter) ≠ 0 then
          some (NameId.ofField _ h) else none) =
      ((counters.map fun counter ↦ Primitives.wideField (lit "CoppiceNmName")
        (name.idInput counter)).find? fun candidate ↦ candidate ≠ 0).bind fun candidate ↦
          if h : candidate ≠ 0 then some (NameId.ofField candidate h) else none := by
    intro counters
    induction counters with
    | nil => rfl
    | cons counter counters ih =>
      by_cases hzero : Primitives.wideField (lit "CoppiceNmName") (name.idInput counter) = 0
      · rw [List.findSome?_cons, dif_neg (not_not.2 hzero), List.map_cons,
          List.find?_cons_of_neg (by simpa using hzero)]
        exact ih
      · rw [List.findSome?_cons, dif_pos hzero, List.map_cons,
          List.find?_cons_of_pos (by simpa using hzero), Option.bind_some, dif_pos hzero]
  rw [Name.id, hsearch] at h
  rw [nameId]
  split
  · rename_i candidate hcandidate
    rw [hcandidate, Option.bind_some] at h
    split
    · rename_i hne
      rw [dif_pos hne] at h
      exact congrArg Except.ok (Except.ok.inj h)
    · rename_i hne
      rw [dif_neg hne] at h
      exact absurd h (by simp)
  · rename_i hnone
    rw [hnone] at h
    exact absurd h (by simp)

theorem validateUa_of_canonicalFor {ua : CanonicalUa} (h : ua.CanonicalFor .regtest) :
    validateUa ua = .ok () := by
  rw [CanonicalUa.CanonicalFor, checkUa] at h
  split at h
  · exact absurd h (by simp)
  rename_i hlength
  split at h
  · exact absurd h (by simp)
  rename_i hhrp
  rw [not_or, maxUaBytes] at hlength
  rw [Bool.not_eq_false, Network.matchesHrp, Bool.and_eq_true, List.isPrefixOf_iff_prefix] at hhrp
  obtain ⟨⟨rest, hrest⟩, hseparator⟩ := hhrp
  rw [← hrest, List.drop_left] at hseparator
  have hseparator' : rest.head? = some 49 := by simpa using hseparator
  obtain ⟨tail, rfl⟩ := List.head?_eq_some_iff.1 hseparator'
  have hlead : (lit "uregtest1").isPrefixOf ua.value.bytes = true := by
    rw [List.isPrefixOf_iff_prefix]
    refine ⟨tail, ?_⟩
    rw [← hrest, show lit "uregtest1" = Network.regtest.hrp ++ [49] by decide, List.append_assoc]
    rfl
  have hpos := List.length_pos_iff.2 hlength.1
  rw [validateUa, if_neg (not_not.2 ⟨hpos, by omega⟩), if_neg (by rw [hlead]; decide)]

/-! ### Schedule -/

/-- The two windows agree wherever a lease fits: there the checked additions of the reducer fail
only for windows that start after the height. -/
theorem operationWindow_eq {parameters : Parameters} (hvalid : parameters.Valid) {name : Name}
    {id : NameId} (hid : name.id = .ok id) {height : U32}
    (hlease : height.val + parameters.leaseBlocks.val ≤ 4294967295) :
    operationWindow parameters name height = .ok (parameters.acceptsOperation id height) := by
  rw [operationWindow, Parameters.acceptsOperation]
  dsimp only
  rcases hepoch : parameters.epoch height with e | epoch
  · have hbefore : height < parameters.activationHeight := by
      rw [Parameters.epoch] at hepoch
      split at hepoch
      · assumption
      · exact absurd hepoch (by simp)
    rw [if_pos (show height.val < parameters.activationHeight.val from hbefore)]
  obtain ⟨hactivation, hvalue⟩ := Parameters.epoch_eq_ok_iff.1 hepoch
  rw [if_neg (show ¬ height.val < parameters.activationHeight.val from not_lt.2 hactivation),
    nameId_eq_ok hid]
  dsimp only
  rw [← Parameters.offset_val hvalid, ← hvalue]
  have hwindow : parameters.windowBlocks < parameters.leaseBlocks :=
    (hvalid.window_le.trans_lt (hvalid.maturity_lt.trans hvalid.ttl_lt)).trans hvalid.epoch_lt
  have hwindow' : parameters.windowBlocks.val < parameters.leaseBlocks.val := hwindow
  congr 1
  rw [Bool.eq_iff_iff, decide_eq_true_eq]
  constructor
  · rintro ⟨hfrom, huntil⟩
    have hok : parameters.window id epoch = .ok ⟨
        ⟨parameters.activationHeight.val + epoch.val * parameters.epochBlocks.val +
          (parameters.offset id).val, by omega⟩,
        ⟨parameters.activationHeight.val + epoch.val * parameters.epochBlocks.val +
          (parameters.offset id).val + parameters.windowBlocks.val, by omega⟩⟩ :=
      (Parameters.window_eq_ok_iff hvalid).2 ⟨rfl, rfl⟩
    rw [hok]
    dsimp only [Window.contains]
    rw [Bool.and_eq_true, decide_eq_true_eq, decide_eq_true_eq]
    exact ⟨hfrom, huntil⟩
  · intro h
    split at h
    · exact absurd h (by simp)
    rename_i window hok
    obtain ⟨hstart, hstop⟩ := (Parameters.window_eq_ok_iff hvalid).1 hok
    rw [Window.contains, Bool.and_eq_true, decide_eq_true_eq, decide_eq_true_eq, Fin.le_def,
      Fin.lt_def] at h
    omega

/-! ### Matching states -/

/-- A head of the reducer, as the checker keeps it. -/
def view (head : CoppiceNames.Head) : Head where
  name := head.name
  ua := head.ua
  producer := head.producer
  commitmentHex := head.commitment.bytes
  futureNf := parseField head.futureNf.bytes
  futureNfHex := head.futureNf.bytes
  producerEpoch := head.producerEpoch
  expiryHeight := head.expiryHeight
  terminalHeight := head.terminalHeight.map Fin.val

@[simp]
theorem view_producer (head : CoppiceNames.Head) : (view head).producer = head.producer := rfl

@[simp]
theorem view_producerEpoch (head : CoppiceNames.Head) :
    (view head).producerEpoch = head.producerEpoch.val := rfl

theorem lifecycle_view (parameters : Parameters) (head : CoppiceNames.Head) (height : U32) :
    lifecycle parameters (view head) height = head.lifecycle height parameters := by
  have hterminal : (view head).terminalHeight.or
      (if height.val ≥ (view head).expiryHeight then some (view head).expiryHeight else none) =
      (head.terminalAt height).map Fin.val := by
    rw [Head.terminalAt]
    rcases hkept : head.terminalHeight with - | terminal
    · rw [show (view head).terminalHeight = none by rw [view, hkept]; rfl, Option.none_or,
        Option.none_or, apply_ite (Option.map Fin.val)]
      rfl
    · rw [show (view head).terminalHeight = some terminal.val by rw [view, hkept]; rfl]
      rfl
  rw [lifecycle, Head.lifecycle, Head.isClaimable, hterminal]
  rcases head.terminalAt height with - | terminal
  · rfl
  · dsimp only [Option.map_some, Option.any_some]
    simp only [decide_eq_true_eq]

theorem spends_view (transaction : Transaction) (head : CoppiceNames.Head) :
    State.spends transaction (view head) = transaction.spends head := by
  rw [State.spends, Transaction.spends]
  congr 1
  funext action
  rw [view, decide_eq_decide]
  exact parseField_element_inj

/-- Every lookup of the checker's state is that of the ledger. -/
structure State.Matches (state : State) (ledger : Ledger) : Prop where
  commits : Same state.commits ledger.commits
  heads : ∀ id : NameId, state.heads.get? id = ledger.heads[id]?.map view

namespace State.Matches

variable {state : State} {ledger : Ledger}

theorem markExpired (h : state.Matches ledger) (height : U32) :
    (state.markExpired height).Matches (ledger.markExpired height) := by
  refine ⟨h.commits, fun id ↦ ?_⟩
  rw [State.markExpired, Ledger.getElem?_markExpired, Dict.get?_mapValues, h.heads, Option.map_map,
    Option.map_map]
  congr 1
  funext head
  -- the lease of a head ends for both at the same height
  have hdue : ((view head).terminalHeight = none ∧ height.val ≥ (view head).expiryHeight) ↔
      head.terminalHeight = none ∧ head.expiryHeight ≤ height := by
    rw [view, Option.map_eq_none_iff]
    rfl
  rw [Function.comp_apply, Function.comp_apply, Head.expire]
  by_cases hexpired : head.terminalHeight = none ∧ head.expiryHeight ≤ height
  · rw [if_pos (hdue.2 hexpired), if_pos hexpired]
    rfl
  · rw [if_neg (mt hdue.1 hexpired), if_neg hexpired]

/-- The heads that both delete at the start of a block. -/
theorem mem_compacted (h : state.Matches ledger) (parameters : Parameters) (height : U32)
    {transition : Transition} : transition ∈ state.compacted parameters height ↔
      ∃ id head, ledger.heads[id]? = some head ∧ head.released parameters height = true ∧
        transition = (⟨id, head.producer, height⟩ : Compaction).traced := by
  rw [State.compacted, List.mem_filterMap]
  simp only [mem_sortedByHex]
  constructor
  · rintro ⟨id, -, hid⟩
    rcases hhead : ledger.heads[id]? with - | head
    · rw [h.heads, hhead] at hid
      exact absurd hid (by simp)
    rw [h.heads, hhead] at hid
    rcases hterminal : head.terminalHeight with - | terminal
    · simp [view, hterminal] at hid
    simp only [view, hterminal, Option.map_some, Option.bind_eq_bind, Option.bind_some] at hid
    split at hid
    · rename_i hdue
      refine ⟨id, head, hhead, ?_, (Option.some.inj hid).symm⟩
      rw [Head.released, hterminal, Option.any_some, decide_eq_true_eq]
      exact hdue
    · exact absurd hid (by simp)
  · rintro ⟨id, head, hhead, hreleased, rfl⟩
    have hget : state.heads.get? id = some (view head) := by rw [h.heads, hhead]; rfl
    refine ⟨id, state.heads.mem_keys_iff.2 ⟨_, hget⟩, ?_⟩
    rw [Head.released, Option.any_eq_true] at hreleased
    obtain ⟨terminal, hterminal, hdue⟩ := hreleased
    rw [decide_eq_true_eq] at hdue
    simp only [hget, view, hterminal, Option.map_some, Option.bind_eq_bind, Option.bind_some,
      if_pos hdue]
    rfl

theorem nameId_of_mem_compacted {parameters : Parameters} {height : U32} {id : NameId}
    {transition : Transition}
    (h : (do
      let head ← state.heads.get? id
      let terminal ← head.terminalHeight
      if height.val ≥ terminal + parameters.cooldownBlocks.val then
        some (⟨"NAMES.LIFECYCLE.COMPACT", height, id, head.producer, "Compacted"⟩ : Transition)
      else none) = some transition) : transition.nameId = id := by
  simp only [Option.bind_eq_bind, Option.bind_eq_some_iff] at h
  obtain ⟨head, -, terminal, -, h⟩ := h
  split at h
  · rw [← Option.some.inj h]
  · exact absurd h (by simp)

/-- **Compaction.** The sorted keys make the checker report it in the order of the names. -/
theorem compacted_eq (h : state.Matches ledger) (parameters : Parameters) (height : U32) :
    state.compacted parameters height =
      (ledger.compactions parameters height).map Compaction.traced := by
  have hsorted := ascending_sortedByHex compare_nameId state.heads.nodup
  have hchecker : OrderedMap.Ascending Transition.nameId (state.compacted parameters height) := by
    refine List.pairwise_filterMap.2 (hsorted.imp fun {a b} hlt t ht t' ht' ↦ ?_)
    rw [nameId_of_mem_compacted ht, nameId_of_mem_compacted ht']
    exact hlt
  have hreducer : OrderedMap.Ascending Transition.nameId
      ((ledger.compactions parameters height).map Compaction.traced) := by
    rw [Ledger.compactions, List.map_map]
    exact List.pairwise_map.2 ((OrderedMap.ascending_toList ledger.heads).filter _)
  refine hchecker.eq_of_mem_iff hreducer fun transition ↦ ?_
  rw [h.mem_compacted, Ledger.compactions, List.map_map, List.mem_map]
  simp only [List.mem_filter, Prod.exists, ExtTreeMap.mem_toList_iff_getElem?_eq_some, and_assoc,
    Function.comp_apply, eq_comm]

theorem compactClaimable (h : state.Matches ledger) (parameters : Parameters) (height : U32) :
    (state.compactClaimable parameters height).2.Matches (ledger.compact parameters height) := by
  refine ⟨h.commits, fun id ↦ ?_⟩
  rw [State.compactClaimable, Ledger.getElem?_compact, Dict.get?_foldl_erase, h.heads]
  rcases hhead : ledger.heads[id]? with - | head
  · simp
  have hmem : id ∈ (state.compacted parameters height).map Transition.nameId ↔
      head.released parameters height = true := by
    rw [List.mem_map]
    constructor
    · rintro ⟨transition, htransition, rfl⟩
      obtain ⟨id, head', hhead', hreleased, rfl⟩ :=
        (h.mem_compacted parameters height).1 htransition
      have heq : some head' = some head := hhead'.symm.trans hhead
      rw [← Option.some.inj heq]
      exact hreleased
    · intro hreleased
      exact ⟨_, (h.mem_compacted parameters height).2 ⟨id, head, hhead, hreleased, rfl⟩, rfl⟩
  rw [if_congr hmem rfl rfl]
  rcases hreleased : head.released parameters height with - | -
  · simp [hreleased]
  · simp [hreleased]

theorem pruneCommits (h : state.Matches ledger) {parameters : Parameters}
    (hvalid : parameters.Valid) (height : U32) :
    (state.pruneCommits parameters height).Matches (ledger.prune parameters height) := by
  refine ⟨fun reference ↦ ?_, h.heads⟩
  rw [State.pruneCommits, Ledger.getElem?_prune, Dict.get?_filter, h.commits]
  have hpos := hvalid.ttl_pos
  -- a difference below zero is below the lifetime, as the truncated one is
  have hage : ((height.val : ℤ) - reference.height.val < parameters.commitTtlBlocks.val) ↔
      height.val - reference.height.val < parameters.commitTtlBlocks.val := by
    omega
  rcases ledger.commits[reference]? with - | commitment
  · rfl
  · by_cases hkept : height.val - reference.height.val < parameters.commitTtlBlocks.val
    · simp [Option.filter, hkept, hage]
    · simp [Option.filter, hkept, hage]

end State.Matches

/-! ### Admission -/

/-- The text of the error that refuses a block. -/
def refusal {A : Type} : Except ApplyError A → Option String
  | .ok _ => none
  | .error e => some e.debug

omit [Primitives] in
/-- The checker compares every action index with its position. The reducer does the same up to the
last index, which it takes for every position from there on. -/
theorem exactIndices_eq (actions : List Action) :
    (actions.zipIdx.all fun (action, position) ↦ action.actionIndex.val == position) =
      (canonicalActions actions && decide (actions.length ≤ 4294967296)) := by
  by_cases hfits : actions.length ≤ 4294967296
  · rw [decide_eq_true hfits, Bool.and_true, canonicalActions, Bool.eq_iff_iff, List.all_eq_true,
      List.all_eq_true]
    refine forall₂_congr fun entry hentry ↦ ?_
    obtain ⟨action, position⟩ := entry
    have hposition : position < 4294967296 :=
      Nat.lt_of_lt_of_le (List.snd_lt_of_mem_zipIdx hentry) (by omega)
    have husize : U32.ofUsize position = some ⟨position, hposition⟩ :=
      U32.ofUsize_eq_some_iff.2 rfl
    dsimp only
    rw [husize, Option.getD_some, beq_iff_eq, beq_iff_eq, Fin.ext_iff]
  · rw [decide_eq_false hfits, Bool.and_false, List.all_eq_false]
    -- the first position without an index of its own
    have hlast : 4294967296 < actions.length := by omega
    refine ⟨(actions[4294967296], 4294967296), List.mem_zipIdx_iff_getElem?.2
      (List.getElem?_eq_getElem hlast), fun hequal ↦ ?_⟩
    have hindex := actions[4294967296].actionIndex.isLt
    rw [beq_iff_eq.1 hequal] at hindex
    exact absurd hindex (by decide)

/-- The positions of the actions fit a `u32`: where the reducer's checks let a transaction with more
actions pass, they refuse a later one for its actions. -/
def PositionsFit (previous : Option U32) (transactions : List Transaction) : Prop :=
  ∀ before transaction after, transactions = before ++ transaction :: after →
    checkTransactions previous (before ++ [transaction]) = .ok () →
    4294967296 < transaction.actions.length →
    checkTransactions previous transactions = .error .nonCanonicalActionIndex

theorem positionsFit_cons_iff {previous : Option U32} {transaction : Transaction}
    {rest : List Transaction} (h : checkTransactions previous [transaction] = .ok ()) :
    PositionsFit previous (transaction :: rest) ↔
      (4294967296 < transaction.actions.length →
        checkTransactions (some transaction.txIndex) rest = .error .nonCanonicalActionIndex) ∧
      PositionsFit (some transaction.txIndex) rest := by
  have hcons := checkTransactions_cons_of_ok h
  constructor
  · intro hfit
    refine ⟨fun hlong ↦ ?_, fun before other after heq hpass hlong ↦ ?_⟩
    · rw [← hcons]
      exact hfit [] transaction rest rfl h hlong
    · rw [← hcons]
      refine hfit (transaction :: before) other after (by rw [heq]; rfl) ?_ hlong
      rw [List.cons_append, hcons]
      exact hpass
  · rintro ⟨hfirst, hrest⟩ before other after heq hpass hlong
    rw [hcons]
    cases before with
    | nil =>
      obtain ⟨rfl, rfl⟩ := List.cons.inj heq
      exact hfirst hlong
    | cons first before =>
      obtain ⟨rfl, rfl⟩ := List.cons.inj heq
      rw [List.cons_append, hcons] at hpass
      exact hrest before other after rfl hpass hlong

/-- **Index checks.** Where the positions fit, the two refuse the same blocks with the same error.
Elsewhere the checker refuses the block for its actions. -/
theorem indexError_spec (previous : Option U32) (transactions : List Transaction) :
    PositionsFit previous transactions ∧
        indexError previous transactions = refusal (checkTransactions previous transactions) ∨
      ¬ PositionsFit previous transactions ∧
        indexError previous transactions = some ApplyError.nonCanonicalActionIndex.debug := by
  induction transactions generalizing previous with
  | nil => exact Or.inl ⟨fun before _ _ heq ↦ absurd heq (by simp), rfl⟩
  | cons transaction rest ih =>
    -- a block whose first transaction is refused has no long transaction that passes
    have hvacuous : ∀ {e : ApplyError}, checkTransactions previous [transaction] = .error e →
        PositionsFit previous (transaction :: rest) := by
      intro e hfirst before other after heq hpass
      have hsingle : checkTransactions previous [transaction] = .ok () := by
        cases before with
        | nil =>
          obtain ⟨rfl, -⟩ := List.cons.inj heq
          exact hpass
        | cons first before =>
          obtain ⟨rfl, -⟩ := List.cons.inj heq
          have hfront : checkTransactions previous ([transaction] ++ (before ++ [other])) =
              .ok () := hpass
          exact checkTransactions_left hfront
      rw [hfirst] at hsingle
      cases hsingle
    rw [indexError, exactIndices_eq]
    by_cases hindex : previous.any fun index ↦ transaction.txIndex ≤ index
    · refine Or.inl ⟨hvacuous (e := .nonCanonicalTransactionIndex) ?_, ?_⟩
      · rw [checkTransactions, if_pos hindex]
      · rw [if_pos hindex, checkTransactions, if_pos hindex]
        rfl
    rw [if_neg hindex]
    rcases hactions : canonicalActions transaction.actions with - | -
    · refine Or.inl ⟨hvacuous (e := .nonCanonicalActionIndex) ?_, ?_⟩
      · rw [checkTransactions, if_neg hindex, if_pos hactions]
      · rw [Bool.false_and, if_pos rfl, checkTransactions, if_neg hindex, if_pos hactions]
        rfl
    have hfirst : checkTransactions previous [transaction] = .ok () := by
      rw [checkTransactions, if_neg hindex, hactions, if_neg (by decide), checkTransactions]
    rw [Bool.true_and, checkTransactions_cons_of_ok hfirst, positionsFit_cons_iff hfirst]
    by_cases hfits : transaction.actions.length ≤ 4294967296
    · rw [decide_eq_true hfits, if_neg (by decide)]
      obtain ⟨hrest, herror⟩ | ⟨hrest, herror⟩ := ih (some transaction.txIndex)
      · exact Or.inl ⟨⟨fun hlong ↦ absurd hfits (Nat.not_le.2 hlong), hrest⟩, herror⟩
      · exact Or.inr ⟨fun hfit ↦ hrest hfit.2, herror⟩
    · rw [decide_eq_false hfits, if_pos rfl]
      by_cases hrest : checkTransactions (some transaction.txIndex) rest =
          .error .nonCanonicalActionIndex
      · exact Or.inl ⟨⟨fun _ ↦ hrest, fun _ _ _ _ _ _ ↦ hrest⟩, by rw [hrest]; rfl⟩
      · exact Or.inr ⟨fun hfit ↦ hrest (hfit.1 (Nat.not_le.1 hfits)), rfl⟩

theorem evidenceError_eq {parameters : Parameters} {commits supplied : Dict CommitRef ℕ}
    {pending pieces : OrderedMap CommitRef Commitment} (hcommits : Same commits pending)
    (hsupplied : Same supplied pieces) (block : Block) (referenced : List ReferencedCommit) :
    evidenceError parameters commits block supplied referenced =
      refusal (supply parameters pending block pieces referenced) := by
  induction referenced generalizing supplied pieces with
  | nil => rfl
  | cons evidence rest ih =>
    rw [evidenceError, supply, hcommits.any_ne, hsupplied.any_ne]
    -- below the block, the difference of the heights is the same in both
    have hrange : (evidence.reference ∉ revealRefs block ∨
        evidence.reference.height.val < parameters.activationHeight.val ∨
        evidence.reference.height.val ≥ block.height.val ∨
        (block.height.val : ℤ) - evidence.reference.height.val ≥
          parameters.commitTtlBlocks.val) ↔
        evidence.reference ∉ block.revealReferences ∨
        evidence.reference.height < parameters.activationHeight ∨
        evidence.reference.height ≥ block.height ∨
        block.height - evidence.reference.height ≥ parameters.commitTtlBlocks := by
      refine or_congr Iff.rfl (or_congr Iff.rfl ?_)
      by_cases hbefore : evidence.reference.height.val ≥ block.height.val
      · exact ⟨fun _ ↦ Or.inl hbefore, fun _ ↦ Or.inl hbefore⟩
      · have hsub : (block.height - evidence.reference.height).val =
            block.height.val - evidence.reference.height.val :=
          Fin.sub_val_of_le (Fin.le_def.2 (by omega))
        rw [ge_iff_le, ge_iff_le, ge_iff_le, ge_iff_le, Fin.le_def, Fin.le_def, hsub]
        omega
    by_cases hinvalid : evidence.reference ∉ block.revealReferences ∨
        evidence.reference.height < parameters.activationHeight ∨
        evidence.reference.height ≥ block.height ∨
        block.height - evidence.reference.height ≥ parameters.commitTtlBlocks
    · rw [if_pos (hrange.2 hinvalid), if_pos hinvalid]
      rfl
    rw [if_neg (mt hrange.1 hinvalid), if_neg hinvalid]
    rcases hconflict : pieces[evidence.reference]?.any
        (fun value ↦ decide (value ≠ evidence.commitment)) with - | -
    · rcases hconflict' : pending[evidence.reference]?.any
          (fun value ↦ decide (value ≠ evidence.commitment)) with - | -
      · simp only [Bool.false_eq_true, or_self, if_false]
        exact ih (hsupplied.insert _ _)
      · simp [refusal, ApplyError.debug]
    · simp [refusal, ApplyError.debug]

/-- The admitted evidence, piece after piece. -/
theorem supply_eq_foldl {parameters : Parameters}
    {pending pieces supplied : OrderedMap CommitRef Commitment} {block : Block}
    {referenced : List ReferencedCommit}
    (h : supply parameters pending block pieces referenced = .ok supplied) :
    supplied = referenced.foldl
      (fun pieces evidence ↦ pieces.insert evidence.reference evidence.commitment) pieces := by
  induction referenced generalizing pieces with
  | nil => exact (Except.ok.inj h).symm
  | cons evidence rest ih =>
    rw [supply] at h
    split at h
    · exact absurd h (by simp)
    split at h
    · exact absurd h (by simp)
    exact ih h

theorem State.Matches.addEvidence {state : State} {ledger : Ledger} (h : state.Matches ledger)
    {parameters : Parameters} {pending supplied : OrderedMap CommitRef Commitment} {block : Block}
    {referenced : List ReferencedCommit}
    (hsupply : supply parameters pending block ∅ referenced = .ok supplied) :
    (state.addEvidence referenced).Matches (ledger.addEvidence supplied) := by
  refine ⟨?_, h.heads⟩
  -- the pieces so far, on top of the pending COMMITs
  have hfold : ∀ (pieces : OrderedMap CommitRef Commitment) (commits : Dict CommitRef ℕ),
      Same commits (ledger.commits ∪ pieces) →
      Same (referenced.foldl (fun commits evidence ↦
        commits.set evidence.reference (parseField evidence.commitment.bytes)) commits)
        (ledger.commits ∪ referenced.foldl
          (fun pieces evidence ↦ pieces.insert evidence.reference evidence.commitment) pieces) := by
    clear hsupply
    induction referenced with
    | nil => exact fun _ _ hsame ↦ hsame
    | cons evidence rest ih =>
      intro pieces commits hsame
      refine ih _ _ ?_
      have hunion : ledger.commits ∪ pieces.insert evidence.reference evidence.commitment =
          (ledger.commits ∪ pieces).insert evidence.reference evidence.commitment := by
        refine ExtTreeMap.ext_getElem? fun reference ↦ ?_
        rw [ExtTreeMap.getElem?_union, ExtTreeMap.getElem?_insert, ExtTreeMap.getElem?_insert,
          ExtTreeMap.getElem?_union]
        split <;> rfl
      rw [hunion]
      exact hsame.insert _ _
  have hempty : ledger.commits ∪ ∅ = ledger.commits := by
    refine ExtTreeMap.ext_getElem? fun reference ↦ ?_
    rw [ExtTreeMap.getElem?_union, ExtTreeMap.getElem?_empty, Option.none_or]
  rw [supply_eq_foldl hsupply]
  exact hfold ∅ state.commits (by rw [hempty]; exact h.commits)

/-! ### Operations -/

/-- The names and addresses of an operation are ones that both sides parse. -/
def Readable : Operation → Prop
  | .commit _ => True
  | .reveal op => (∃ id, op.name.id = .ok id) ∧ op.ua.CanonicalFor .regtest
  | .refresh op => (∃ id, op.name.id = .ok id) ∧ op.ua.CanonicalFor .regtest

theorem validateValues_of_readable {transactions : List Transaction}
    (h : ∀ transaction ∈ transactions, ∀ op ∈ transaction.operation, Readable op) :
    validateValues transactions = .ok () := by
  induction transactions with
  | nil => rfl
  | cons transaction rest ih =>
    have hrest := ih fun t ht ↦ h t (List.mem_cons_of_mem transaction ht)
    have hfirst := h transaction List.mem_cons_self
    rw [validateValues, hrest]
    rcases hoperation : transaction.operation with - | (commitment | op | op)
    · rfl
    · rfl
    · have hua := validateUa_of_canonicalFor (hfirst _ hoperation).2
      simp only [parseName_asStr, hua]
      rfl
    · have hua := validateUa_of_canonicalFor (hfirst _ hoperation).2
      simp only [parseName_asStr, hua]
      rfl

/-- What the operations of one height share. -/
structure Setting (rules : Rules) (valid : List UInt8 → Bool) (height : U32) : Prop where
  verifier : rules.verifier = ProofVerdicts valid
  activation_le : rules.parameters.activationHeight ≤ height
  lease : height.val + rules.parameters.leaseBlocks.val ≤ 4294967295

namespace Setting

variable {rules : Rules} {valid : List UInt8 → Bool} {height : U32}

theorem exists_epoch (h : Setting rules valid height) :
    ∃ epoch, rules.parameters.epoch height = .ok epoch ∧ epoch.val =
      (height.val - rules.parameters.activationHeight.val) / rules.parameters.epochBlocks.val := by
  have hlt := Nat.lt_of_le_of_lt (Nat.div_le_self
    (height.val - rules.parameters.activationHeight.val) rules.parameters.epochBlocks.val)
    (Nat.lt_of_le_of_lt (Nat.sub_le _ _) height.isLt)
  exact ⟨⟨_, hlt⟩, Parameters.epoch_eq_ok_iff.2 ⟨h.activation_le, rfl⟩, rfl⟩

theorem exists_expiry (h : Setting rules valid height) :
    ∃ expiry, rules.parameters.expiry height = .ok expiry ∧
      expiry.val = height.val + rules.parameters.leaseBlocks.val := by
  have hlt := h.lease
  exact ⟨⟨height.val + rules.parameters.leaseBlocks.val, by omega⟩,
    Parameters.expiry_eq_ok_iff.2 rfl, rfl⟩

theorem view_successor {transaction : Transaction} {name : Name} {ua : CanonicalUa}
    {actionIndex : U32} {action : Action} {futureNf : FieldElement} {epoch expiry : U32}
    (hepoch : epoch.val =
      (height.val - rules.parameters.activationHeight.val) / rules.parameters.epochBlocks.val)
    (hexpiry : expiry.val = height.val + rules.parameters.leaseBlocks.val) :
    view (transaction.successor height name ua actionIndex action.commitment futureNf epoch
      expiry) =
      installed rules.parameters height transaction name ua actionIndex action futureNf := by
  rw [installed, fieldHex_parseField, fieldHex_parseField, ← hepoch, ← hexpiry]
  rfl

end Setting

omit [Primitives] in
/-- The COMMIT checks of a REVEAL. -/
theorem acceptsCommit_eq_false_iff {parameters : Parameters} {commitHeight height : U32} :
    parameters.acceptsCommit commitHeight height = false ↔
      commitHeight.val < parameters.activationHeight.val ∨
      (height.val : ℤ) - commitHeight.val < parameters.commitMaturityBlocks.val ∨
      (height.val : ℤ) - commitHeight.val ≥ parameters.commitTtlBlocks.val := by
  rw [← Bool.not_eq_true, Parameters.acceptsCommit_iff, Fin.le_def, Fin.le_def]
  omega

namespace State.Matches

variable {state : State} {ledger : Ledger} {rules : Rules} {valid : List UInt8 → Bool}
  {height : U32} {transaction : Transaction}

/-- **REVEAL.** -/
theorem applyReveal (h : state.Matches ledger) (hsetting : Setting rules valid height)
    {op : Reveal} {id : NameId} (hid : op.name.id = .ok id) :
    state.applyReveal rules.parameters valid height transaction op =
      match ledger.revealed rules height transaction op with
      | .ok (id, head) => .ok ((true, "NAMES.REVEAL.ACCEPT"),
          { state with heads := state.heads.set id (view head) })
      | .error clause => .ok ((false, clause.text), state) := by
  obtain ⟨epoch, hepoch, hepochVal⟩ := hsetting.exists_epoch
  obtain ⟨expiry, hexpiry, hexpiryVal⟩ := hsetting.exists_expiry
  unfold State.applyReveal Ledger.revealed
  simp only [parseName_asStr, nameId_eq_ok hid, hid, bind, Except.bind,
    operationWindow_eq rules.valid hid hsetting.lease, h.heads, Option.isSome_map,
    ← ExtTreeMap.contains_eq_isSome_getElem?]
  rcases ledger.heads.contains id with - | -
  swap
  · rfl
  rw [if_neg Bool.false_ne_true, if_neg Bool.false_ne_true]
  rcases hwindow : rules.parameters.acceptsOperation id height with - | -
  · rfl
  rcases hcommit : rules.parameters.acceptsCommit op.commit.height height with - | -
  · rw [if_pos (Or.inr (acceptsCommit_eq_false_iff.1 hcommit))]
    rfl
  have hage : ¬ (true = false ∨ op.commit.height.val < rules.parameters.activationHeight.val ∨
      (height.val : ℤ) - op.commit.height.val < rules.parameters.commitMaturityBlocks.val ∨
      (height.val : ℤ) - op.commit.height.val ≥ rules.parameters.commitTtlBlocks.val) := by
    rw [← acceptsCommit_eq_false_iff, hcommit]
    decide
  rw [if_neg hage, h.commits op.commit]
  rcases ledger.commits[op.commit]? with - | commitment
  · rfl
  rcases transaction.actions[op.actionIndex.val]? with - | action
  · rfl
  by_cases hindex : action.actionIndex ≠ op.actionIndex
  · simp only [Option.map_some, if_pos hindex]
    rfl
  simp only [Option.map_some, if_neg hindex, hepoch, hsetting.verifier, ProofVerdicts]
  rcases valid op.proof with - | -
  · rfl
  simp only [hexpiry, Bool.true_eq_false, if_false, Setting.view_successor hepochVal hexpiryVal]

/-- **REFRESH.** -/
theorem applyRefresh (h : state.Matches ledger) (hsetting : Setting rules valid height)
    {op : Refresh} {id : NameId} (hid : op.name.id = .ok id) :
    state.applyRefresh rules.parameters valid height transaction op =
      match ledger.refreshed rules height transaction op with
      | .ok (id, head) => .ok ((true, "NAMES.REFRESH.ACCEPT"),
          { state with heads := state.heads.set id (view head) })
      | .error clause => .ok ((false, clause.text), state) := by
  obtain ⟨epoch, hepoch, hepochVal⟩ := hsetting.exists_epoch
  obtain ⟨expiry, hexpiry, hexpiryVal⟩ := hsetting.exists_expiry
  unfold State.applyRefresh Ledger.refreshed
  simp only [parseName_asStr, nameId_eq_ok hid, hid, bind, Except.bind,
    operationWindow_eq rules.valid hid hsetting.lease, h.heads]
  rcases ledger.heads[id]? with - | predecessor
  · rfl
  simp only [Option.map_some, lifecycle_view, hepoch, view_producer, view_producerEpoch,
    ← hepochVal]
  by_cases hcurrent : predecessor.lifecycle height rules.parameters ≠ .active ∨
      predecessor.producer ≠ op.predecessor
  · rw [if_pos hcurrent, if_pos hcurrent]
    rfl
  rw [if_neg hcurrent, if_neg hcurrent]
  by_cases hlater : predecessor.producerEpoch ≥ epoch
  · rw [if_pos hlater, if_pos (show predecessor.producerEpoch.val ≥ epoch.val from hlater)]
    rfl
  rw [if_neg hlater, if_neg (show ¬ predecessor.producerEpoch.val ≥ epoch.val from hlater)]
  rcases rules.parameters.acceptsOperation id height with - | -
  · rfl
  rw [if_neg (by decide), if_neg (by decide)]
  rcases transaction.actions[op.actionIndex.val]? with - | action
  · rfl
  have hnullifier : (action.actionIndex ≠ op.actionIndex ∨
      parseField action.nullifier.bytes ≠ (view predecessor).futureNf) ↔
      action.actionIndex ≠ op.actionIndex ∨ action.nullifier ≠ predecessor.futureNf :=
    or_congr Iff.rfl (not_congr parseField_element_inj)
  by_cases hspends : action.actionIndex ≠ op.actionIndex ∨ action.nullifier ≠ predecessor.futureNf
  · simp only [if_pos (hnullifier.2 hspends), if_pos hspends]
    rfl
  simp only [if_neg (mt hnullifier.1 hspends), if_neg hspends, hsetting.verifier, ProofVerdicts]
  rcases valid op.proof with - | -
  · rfl
  simp only [hexpiry, Bool.true_eq_false, if_false, Setting.view_successor hepochVal hexpiryVal]

/-- Writing a head on both sides. -/
theorem insertHead (h : state.Matches ledger) (id : NameId) (head : CoppiceNames.Head) :
    State.Matches { state with heads := state.heads.set id (view head) }
      { ledger with heads := ledger.heads.insert id head } := by
  refine ⟨h.commits, fun other ↦ ?_⟩
  dsimp only
  rw [Dict.get?_set, ExtTreeMap.getElem?_insert]
  by_cases hother : other = id
  · rw [if_pos hother, if_pos (by rw [hother]; exact ReflCmp.compare_self)]
    rfl
  · rw [if_neg hother, if_neg fun heq ↦ hother (LawfulEqOrd.eq_of_compare heq).symm, h.heads other]

/-- **Operations.** The two reach the same verdict with the same clause, and matching states. -/
theorem applyOperation (h : state.Matches ledger) (hsetting : Setting rules valid height)
    (hreadable : ∀ op ∈ transaction.operation, Readable op) :
    ∃ after, state.applyOperation rules.parameters valid height transaction =
        .ok (((ledger.applyOperation rules height transaction).1.accepted.isSome,
          (ledger.applyOperation rules height transaction).1.clauseId.text), after) ∧
      after.Matches (ledger.applyOperation rules height transaction).2 := by
  rw [State.applyOperation, Ledger.applyOperation]
  rcases hoperation : transaction.operation with - | (commitment | op | op)
  · exact ⟨state, rfl, h⟩
  · exact ⟨_, rfl, h.commits.insert _ commitment, h.heads⟩
  · obtain ⟨⟨id, hid⟩, -⟩ := hreadable _ hoperation
    dsimp only
    rw [h.applyReveal hsetting hid]
    rcases ledger.revealed rules height transaction op with clause | ⟨installedId, head⟩
    · exact ⟨state, rfl, h⟩
    · exact ⟨_, rfl, h.insertHead installedId head⟩
  · obtain ⟨⟨id, hid⟩, -⟩ := hreadable _ hoperation
    dsimp only
    rw [h.applyRefresh hsetting hid]
    rcases ledger.refreshed rules height transaction op with clause | ⟨installedId, head⟩
    · exact ⟨state, rfl, h⟩
    · exact ⟨_, rfl, h.insertHead installedId head⟩

end State.Matches

end Matching

end Checker

end CoppiceNames
