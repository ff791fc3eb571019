import CoppiceNames.Checker.Matching
import CoppiceNames.Reducer.Reorg

/-!
# Checker and reducer agree up to the order of terminations

Two places where the two traces can differ. A transaction may spend the heads of several names. The
checker walks its dictionary of heads and reports the terminations in the order in which the names
entered it; the reducer reports them in the order of the name identifiers. Compaction is not
affected, because there the checker sorts its keys. And a transaction may have more actions than a
`u32` can number: the reducer then takes the last index for every further position, the checker
refuses the block.

`State.InOrder` says, of the state before a transaction, that the heads it is about to terminate
stand in the dictionary in the order of their names, and `Reducer.BlockFits` of a block that the
positions fit. While they do, the states of the two always match, and a whole trace is the same on
both sides exactly when they do throughout and every transaction of every admitted block finds its
heads in order (`checker_trace_eq_iff`).
-/

open Std hiding not_le not_lt

namespace CoppiceNames

namespace Checker

section Agreement

variable [Primitives]

/-! ### The order of spends -/

namespace State

variable (state : State) (parameters : Parameters) (valid : List UInt8 → Bool) (height : U32)
  (transaction : Transaction)

/-- The operation of the transaction is a REFRESH of the name that is accepted. -/
def refreshes (id : NameId) : Bool :=
  match transaction.operation with
  | some (.refresh op) =>
    match nameId op.name, state.applyRefresh parameters valid height transaction op with
    | .ok identity, .ok ((accepted, _), _) => accepted && decide (identity = id)
    | _, _ => false
  | _ => false

/-- The active heads that the transaction spends and does not refresh, in the order of the
dictionary. -/
def releasing : List (NameId × Head) :=
  state.heads.entries.filter fun entry ↦
    spends transaction entry.2 && (entry.2.terminalHeight.isNone &&
      !state.refreshes parameters valid height transaction entry.1)

/-- They stand in the dictionary in the order of their names. -/
def InOrder : Prop :=
  OrderedMap.Ascending Prod.fst (state.releasing parameters valid height transaction)

/-- Every transaction finds its heads in order. -/
def AllInOrder (state : State) (parameters : Parameters) (valid : List UInt8 → Bool)
    (height : U32) : List Transaction → Prop
  | [] => True
  | transaction :: rest => state.InOrder parameters valid height transaction ∧
      ∀ result next, state.applyTransaction parameters valid height transaction =
        .ok (result, next) → next.AllInOrder parameters valid height rest

/-- The head is still the one that was spent, and active. -/
def current (entry : NameId × StateRef) : Bool :=
  (state.heads.get? entry.1).any fun head ↦
    decide (head.producer = entry.2 ∧ head.terminalHeight = none)

end State

/-- The transition that reports a termination. -/
def terminated (height : U32) (entry : NameId × StateRef) : Transition :=
  ⟨"NAMES.SPEND.CURRENT", height, entry.1, entry.2, "Terminated"⟩

/-- One spend, by whether the head is still current. -/
theorem spend_eq (height : U32) (transitions : List Transition) (state : State)
    (entry : NameId × StateRef) :
    State.spend height (transitions, state) entry = (transitions, state) ∧
        state.current entry = false ∨
      ∃ head, state.heads.get? entry.1 = some head ∧ head.producer = entry.2 ∧
        head.terminalHeight = none ∧ state.current entry = true ∧
        State.spend height (transitions, state) entry =
          (transitions ++ [terminated height entry],
            { state with
              heads := state.heads.set entry.1
                { head with terminalHeight := some height.val } }) := by
  rw [State.spend, State.current]
  rcases hhead : state.heads.get? entry.1 with - | head
  · exact Or.inl ⟨rfl, rfl⟩
  by_cases hcurrent : head.producer = entry.2 ∧ head.terminalHeight = none
  · refine Or.inr ⟨head, rfl, hcurrent.1, hcurrent.2, ?_, if_pos hcurrent⟩
    rw [Option.any_some, decide_eq_true hcurrent]
  · refine Or.inl ⟨if_neg hcurrent, ?_⟩
    rw [Option.any_some, decide_eq_false hcurrent]

/-- **The spend loop.** The visited names are distinct, so what one visit writes no other reads. -/
theorem foldl_spend (height : U32) {entries : List (NameId × StateRef)}
    (hnodup : (entries.map Prod.fst).Nodup) (transitions : List Transition) (state : State) :
    (entries.foldl (State.spend height) (transitions, state)).1 =
        transitions ++ (entries.filter state.current).map (terminated height) ∧
      (entries.foldl (State.spend height) (transitions, state)).2.commits = state.commits ∧
      ∀ id, (entries.foldl (State.spend height) (transitions, state)).2.heads.get? id =
        (state.heads.get? id).map fun head ↦
          if head.terminalHeight = none ∧ (id, head.producer) ∈ entries then
            { head with terminalHeight := some height.val } else head := by
  induction entries generalizing transitions state with
  | nil => simp
  | cons entry entries ih =>
    obtain ⟨hfresh, hrest⟩ := List.nodup_cons.1 hnodup
    rw [List.foldl_cons]
    rcases spend_eq height transitions state entry with
      ⟨hskip, hstale⟩ | ⟨head, hhead, hproducer, hactive, hcurrent, hspend⟩
    · obtain ⟨h₁, h₂, h₃⟩ := ih hrest transitions state
      rw [hskip, List.filter_cons_of_neg (by rw [hstale]; decide)]
      refine ⟨h₁, h₂, fun id ↦ ?_⟩
      rw [h₃]
      -- the entry itself would have been current
      rcases hget : state.heads.get? id with - | found
      · rfl
      have hother : (found.terminalHeight = none ∧ (id, found.producer) ∈ entry :: entries) ↔
          found.terminalHeight = none ∧ (id, found.producer) ∈ entries := by
        refine and_congr_right fun hnone ↦ ⟨fun hmem ↦ ?_, List.mem_cons_of_mem entry⟩
        rcases List.mem_cons.1 hmem with heq | hmem
        · rw [State.current, ← heq, hget, Option.any_some,
            decide_eq_true (show found.producer = found.producer ∧ _ from ⟨rfl, hnone⟩)] at hstale
          exact absurd hstale (by decide)
        · exact hmem
      rw [Option.map_some, Option.map_some, if_congr hother rfl rfl]
    · obtain ⟨h₁, h₂, h₃⟩ := ih hrest (transitions ++ [terminated height entry])
        { state with
          heads := state.heads.set entry.1 { head with terminalHeight := some height.val } }
      have hlater : ∀ other ∈ entries, other.1 ≠ entry.1 := fun other hother heq ↦
        hfresh (heq ▸ List.mem_map_of_mem hother)
      have hfilter : entries.filter (State.current { state with
          heads := state.heads.set entry.1 { head with terminalHeight := some height.val } }) =
          entries.filter state.current := by
        refine List.filter_congr fun other hother ↦ ?_
        rw [State.current, State.current, Dict.get?_set, if_neg (hlater other hother)]
      rw [hspend, List.filter_cons_of_pos hcurrent, List.map_cons]
      refine ⟨?_, h₂, fun id ↦ ?_⟩
      · rw [h₁, hfilter, List.append_assoc]
        rfl
      rw [h₃, Dict.get?_set]
      by_cases hid : id = entry.1
      · have hmem : (id, head.producer) ∈ entry :: entries := by
          rw [hid, hproducer]
          exact List.mem_cons_self
        rw [if_pos hid, hid, hhead, Option.map_some, Option.map_some,
          if_neg (fun h ↦ absurd h.1 (by simp)), if_pos ⟨hactive, hid ▸ hmem⟩]
      · rw [if_neg hid]
        rcases state.heads.get? id with - | found
        · rfl
        have hne : (id, found.producer) ≠ entry := fun heq ↦ hid (by rw [← heq])
        simp only [Option.map_some, List.mem_cons, or_iff_right hne]

theorem State.spent_nodup (state : State) (transaction : Transaction) :
    ((state.spent transaction).map Prod.fst).Nodup := by
  rw [State.spent, List.map_map]
  exact state.heads.nodup.sublist (List.filter_sublist.map Prod.fst)

namespace State.Matches

variable {state after : State} {before ledger : Ledger} {rules : Rules}
  {valid : List UInt8 → Bool} {height : U32} {transaction : Transaction}

theorem mem_spent (h : state.Matches before) {id : NameId} {producer : StateRef} :
    (id, producer) ∈ state.spent transaction ↔
      ∃ previous, before.heads[id]? = some previous ∧ transaction.spends previous = true ∧
        previous.producer = producer := by
  rw [State.spent, List.mem_map]
  constructor
  · rintro ⟨⟨id', found⟩, hmem, heq⟩
    obtain ⟨rfl, rfl⟩ := Prod.ext_iff.1 heq
    obtain ⟨hfound, hspends⟩ := List.mem_filter.1 hmem
    rw [state.heads.mem_entries_iff, h.heads, Option.map_eq_some_iff] at hfound
    obtain ⟨previous, hprevious, rfl⟩ := hfound
    rw [spends_view] at hspends
    exact ⟨previous, hprevious, hspends, rfl⟩
  · rintro ⟨previous, hprevious, hspends, rfl⟩
    refine ⟨(id, view previous), List.mem_filter.2 ⟨?_, ?_⟩, rfl⟩
    · rw [state.heads.mem_entries_iff, h.heads, hprevious]
      rfl
    · rw [spends_view]
      exact hspends

/-- A head is spent under the reducer when the checker's loop visits it. -/
theorem spent_iff (h : state.Matches before) {id : NameId} {head : CoppiceNames.Head} :
    before.spent transaction id head = true ↔
      head.terminalHeight = none ∧ (id, head.producer) ∈ state.spent transaction := by
  rw [Ledger.spent, Bool.and_eq_true, Option.isNone_iff_eq_none, h.mem_spent, Option.any_eq_true]
  simp only [Bool.and_eq_true, decide_eq_true_eq]

/-- **Spends** leave matching states. -/
theorem terminate (h : state.Matches before) (hafter : after.Matches ledger)
    (transitions : List Transition) :
    ((state.spent transaction).foldl (State.spend height) (transitions, after)).2.Matches
      (ledger.terminate before height transaction) := by
  obtain ⟨-, hcommits, hheads⟩ :=
    foldl_spend height (state.spent_nodup transaction) transitions after
  refine ⟨by rw [hcommits]; exact hafter.commits, fun id ↦ ?_⟩
  rw [hheads, Ledger.getElem?_terminate, hafter.heads, Option.map_map, Option.map_map]
  congr 1
  funext head
  have hvisited : ((view head).terminalHeight = none ∧
      (id, (view head).producer) ∈ state.spent transaction) ↔
      before.spent transaction id head = true := by
    rw [h.spent_iff, view, Option.map_eq_none_iff]
  rw [Function.comp_apply, Function.comp_apply, Ledger.afterSpend]
  by_cases hspent : before.spent transaction id head = true
  · rw [if_pos (hvisited.2 hspent), if_pos hspent]
    rfl
  · rw [if_neg (mt hvisited.1 hspent), if_neg hspent]

/-- The reported terminations are those of the reducer. -/
theorem mem_terminated (h : state.Matches before) (hafter : after.Matches ledger)
    {transition : Transition} :
    transition ∈ ((state.spent transaction).filter after.current).map (terminated height) ↔
      transition ∈ (ledger.terminations before height transaction).map Termination.traced := by
  rw [Ledger.terminations, List.map_map, List.mem_map, List.mem_map]
  constructor
  · rintro ⟨⟨id, producer⟩, hmem, rfl⟩
    obtain ⟨hspent, hcurrent⟩ := List.mem_filter.1 hmem
    rw [State.current, hafter.heads, Option.any_map, Option.any_eq_true] at hcurrent
    obtain ⟨head, hhead, hsame⟩ := hcurrent
    rw [decide_eq_true_eq] at hsame
    obtain ⟨hproducer, hactive⟩ := hsame
    have hproducer' : head.producer = producer := hproducer
    have hactive' : head.terminalHeight = none := Option.map_eq_none_iff.1 hactive
    refine ⟨(id, head), List.mem_filter.2 ⟨?_, h.spent_iff.2 ⟨hactive', ?_⟩⟩, ?_⟩
    · rw [ExtTreeMap.mem_toList_iff_getElem?_eq_some]
      exact hhead
    · rw [hproducer']
      exact hspent
    · rw [← hproducer']
      rfl
  · rintro ⟨⟨id, head⟩, hmem, rfl⟩
    obtain ⟨hhead, hspent⟩ := List.mem_filter.1 hmem
    rw [ExtTreeMap.mem_toList_iff_getElem?_eq_some] at hhead
    obtain ⟨hactive, hvisited⟩ := h.spent_iff.1 hspent
    refine ⟨(id, head.producer), List.mem_filter.2 ⟨hvisited, ?_⟩, rfl⟩
    rw [State.current, hafter.heads, hhead, Option.map_some, Option.any_some, decide_eq_true_eq]
    exact ⟨rfl, Option.map_eq_none_iff.2 hactive⟩

/-- The two agree on which REFRESHes are accepted. -/
theorem refreshes_iff (h : state.Matches before) (hsetting : Setting rules valid height)
    (hreadable : ∀ op ∈ transaction.operation, Readable op) {id : NameId} :
    state.refreshes rules.parameters valid height transaction id = true ↔
      ∃ op head, transaction.operation = some (.refresh op) ∧
        before.refreshed rules height transaction op = .ok (id, head) := by
  rw [State.refreshes]
  rcases hoperation : transaction.operation with - | (commitment | op | op)
  · simp
  · simp
  · simp
  obtain ⟨⟨identity, hidentity⟩, -⟩ := hreadable _ hoperation
  dsimp only
  rw [nameId_eq_ok hidentity, h.applyRefresh hsetting hidentity]
  rcases hrefreshed : before.refreshed rules height transaction op with clause | ⟨accepted, head⟩
  · simp [hrefreshed]
  · have hsame : accepted = identity := by
      have hid := (Ledger.refreshed_eq_ok hrefreshed).1
      rw [hidentity] at hid
      exact (Except.ok.inj hid).symm
    simp [hrefreshed, hsame]

/-- A head that was there before the operation is still current after it unless it was terminal or
its name was refreshed: a new head has a later producer. -/
theorem current_iff (h : state.Matches before) (hsetting : Setting rules valid height)
    (hreadable : ∀ op ∈ transaction.operation, Readable op) {bound : ℕ}
    (hinv : before.Inv rules.parameters height bound) (hbound : bound ≤ transaction.txIndex.val)
    (hafter : after.Matches (before.applyOperation rules height transaction).2) {id : NameId}
    {previous : CoppiceNames.Head} (hprevious : before.heads[id]? = some previous) :
    after.current (id, previous.producer) = true ↔ previous.terminalHeight = none ∧
      state.refreshes rules.parameters valid height transaction id = false := by
  -- the head of the name, after the operation
  have hcurrent : ∀ head, (before.applyOperation rules height transaction).2.heads[id]? =
      some head → (after.current (id, previous.producer) = true ↔
        head.producer = previous.producer ∧ head.terminalHeight = none) := by
    intro head hhead
    rw [State.current, hafter.heads, hhead, Option.map_some, Option.any_some, decide_eq_true_eq,
      view_producer, view, Option.map_eq_none_iff]
  have hkept : (before.applyOperation rules height transaction).2.heads[id]? = some previous →
      state.refreshes rules.parameters valid height transaction id = false →
      (after.current (id, previous.producer) = true ↔ previous.terminalHeight = none ∧
        state.refreshes rules.parameters valid height transaction id = false) := by
    intro hhead hnot
    rw [hcurrent previous hhead, hnot]
    simp
  have hnot : (¬ ∃ op head, transaction.operation = some (.refresh op) ∧
      before.refreshed rules height transaction op = .ok (id, head)) →
      state.refreshes rules.parameters valid height transaction id = false := fun hno ↦ by
    rw [← Bool.not_eq_true, h.refreshes_iff hsetting hreadable]
    exact hno
  rw [Ledger.applyOperation] at hkept hcurrent
  rcases hoperation : transaction.operation with - | (commitment | op | op)
  · rw [hoperation] at hkept
    exact hkept hprevious (hnot (by simp [hoperation]))
  · rw [hoperation] at hkept
    exact hkept hprevious (hnot (by simp [hoperation]))
  · have hno := hnot (by simp [hoperation])
    rw [hoperation] at hkept
    dsimp only at hkept
    rcases hrevealed : before.revealed rules height transaction op with clause | ⟨revealed, head⟩
    · rw [hrevealed] at hkept
      exact hkept hprevious hno
    · -- a REVEAL needs a free name
      have hfree := (Ledger.revealed_eq_ok hrevealed).2.1
      have hne : revealed ≠ id := fun heq ↦ by
        rw [heq, hprevious] at hfree
        exact absurd hfree (by simp)
      rw [hrevealed] at hkept
      refine hkept ?_ hno
      rw [OrderedMap.getElem?_insert_of_ne hne]
      exact hprevious
  · rw [hoperation] at hkept hcurrent
    dsimp only at hkept hcurrent
    rcases hrefreshed : before.refreshed rules height transaction op with
      clause | ⟨refreshed, head⟩
    · rw [hrefreshed] at hkept
      exact hkept hprevious (hnot (by simp [hoperation, hrefreshed]))
    rw [hrefreshed] at hkept hcurrent
    by_cases hid : refreshed = id
    · obtain ⟨-, predecessor, -, -, -, -, action, epoch, expiry, -, -, -, -, -, -, rfl⟩ :=
        Ledger.refreshed_eq_ok hrefreshed
      have hyes : state.refreshes rules.parameters valid height transaction id = true :=
        (h.refreshes_iff hsetting hreadable).2 ⟨op, _, hoperation, hid ▸ hrefreshed⟩
      have hnew := hcurrent _ (by
        rw [hid, ExtTreeMap.getElem?_insert_self])
      rw [hnew, hyes]
      have hold := hinv.head id previous hprevious
      constructor
      · rintro ⟨hproducer, -⟩
        have hheight : previous.producer.height = height := by rw [← hproducer]; rfl
        have hindex : previous.producer.txIndex = transaction.txIndex := by rw [← hproducer]; rfl
        have hlt := hold.producer_lt hheight
        rw [hindex] at hlt
        omega
      · rintro ⟨-, hfalse⟩
        exact absurd hfalse (by decide)
    · refine hkept ?_ (hnot ?_)
      · rw [OrderedMap.getElem?_insert_of_ne hid]
        exact hprevious
      · rintro ⟨op', head', hop, hresult⟩
        rw [hoperation, Option.some.injEq, Operation.refresh.injEq] at hop
        rw [← hop, hrefreshed, Except.ok.injEq, Prod.mk.injEq] at hresult
        exact hid hresult.1

/-- The terminations that the checker reports, read off the state before the transaction. -/
theorem terminated_eq_releasing (h : state.Matches before) (hsetting : Setting rules valid height)
    (hreadable : ∀ op ∈ transaction.operation, Readable op) {bound : ℕ}
    (hinv : before.Inv rules.parameters height bound) (hbound : bound ≤ transaction.txIndex.val)
    (hafter : after.Matches (before.applyOperation rules height transaction).2) :
    ((state.spent transaction).filter after.current).map (terminated height) =
      (state.releasing rules.parameters valid height transaction).map fun entry ↦
        terminated height (entry.1, entry.2.producer) := by
  rw [State.spent, State.releasing, List.filter_map, List.map_map, List.filter_filter]
  refine congrArg (List.map _) (List.filter_congr fun entry hentry ↦ ?_)
  obtain ⟨id, found⟩ := entry
  rw [state.heads.mem_entries_iff, h.heads, Option.map_eq_some_iff] at hentry
  obtain ⟨previous, hprevious, rfl⟩ := hentry
  rw [Bool.and_comm]
  congr 1
  rw [Bool.eq_iff_iff, Function.comp_apply]
  refine (h.current_iff hsetting hreadable hinv hbound hafter hprevious).trans ?_
  rw [Bool.and_eq_true, Bool.not_eq_true', Option.isNone_iff_eq_none, view, Option.map_eq_none_iff]

/-- The terminations of a transaction, on both sides. -/
theorem terminated_eq_iff (h : state.Matches before) (hsetting : Setting rules valid height)
    (hreadable : ∀ op ∈ transaction.operation, Readable op) {bound : ℕ}
    (hinv : before.Inv rules.parameters height bound) (hbound : bound ≤ transaction.txIndex.val)
    (hafter : after.Matches (before.applyOperation rules height transaction).2)
    {transitions : List Transition} (htransitions : transitions =
      ((state.spent transaction).filter after.current).map (terminated height)) :
    transitions.length = (before.applyTransaction rules height transaction).2.1.length ∧
      (transitions = (before.applyTransaction rules height transaction).2.1.map Termination.traced ↔
        state.InOrder rules.parameters valid height transaction) := by
  have hlist := htransitions.trans
    (h.terminated_eq_releasing hsetting hreadable hinv hbound hafter)
  have hreducer : OrderedMap.Ascending Transition.nameId
      ((before.applyTransaction rules height transaction).2.1.map Termination.traced) := by
    rw [Ledger.applyTransaction, Ledger.terminations, List.map_map]
    exact List.pairwise_map.2 ((OrderedMap.ascending_toList _).filter _)
  have hnodup : (transitions.map Transition.nameId).Nodup := by
    rw [hlist, List.map_map]
    exact state.heads.nodup.sublist (List.filter_sublist.map Prod.fst)
  obtain ⟨hlength, hiff⟩ := hreducer.eq_iff_of_mem_iff hnodup fun transition ↦ by
    rw [htransitions]
    exact h.mem_terminated hafter
  rw [List.length_map] at hlength
  refine ⟨hlength, hiff.trans ?_⟩
  rw [hlist]
  exact List.pairwise_map

end State.Matches

/-! ### Transactions -/

/-- What two runs of the same transactions have in common: matching states after them, the same
decisions, and as many terminations; and the same terminations when they come in the same order. -/
structure Alike (inOrder : Prop) (transitions : List Transition) (terminations : List Termination)
    (state : State) (ledger : Ledger) : Prop where
  records : state.Matches ledger
  length_eq : transitions.length = terminations.length
  transitions_eq_iff : transitions = terminations.map Termination.traced ↔ inOrder

/-- The verdict on a transaction, as both report it. -/
def traced (transaction : Transaction) (decision : OperationDecision) : TracedOperation :=
  ⟨transaction.txIndex, operationKind transaction.operation, some decision.accepted.isSome,
    decision.clauseId.text⟩

section Transactions

variable {state : State} {ledger : Ledger} {rules : Rules} {valid : List UInt8 → Bool}
  {height : U32}

/-- **One transaction.** -/
theorem State.Matches.applyTransaction (h : state.Matches ledger)
    (hsetting : Setting rules valid height) {transaction : Transaction}
    (hreadable : ∀ op ∈ transaction.operation, Readable op) {bound : ℕ}
    (hinv : ledger.Inv rules.parameters height bound)
    (hbound : bound ≤ transaction.txIndex.val) :
    ∃ transitions next, state.applyTransaction rules.parameters valid height transaction =
        .ok ((traced transaction (ledger.applyTransaction rules height transaction).1,
          transitions), next) ∧
      Alike (state.InOrder rules.parameters valid height transaction) transitions
        (ledger.applyTransaction rules height transaction).2.1 next
        (ledger.applyTransaction rules height transaction).2.2 := by
  obtain ⟨after, happly, hafter⟩ := h.applyOperation hsetting hreadable
  have hlist := (foldl_spend height (state.spent_nodup transaction) [] after).1
  rw [List.nil_append] at hlist
  obtain ⟨hlength, hiff⟩ := h.terminated_eq_iff hsetting hreadable hinv hbound hafter hlist
  refine ⟨_, _, ?_, h.terminate hafter [], hlength, hiff⟩
  rw [State.applyTransaction, happly]
  rfl

/-- **All transactions of a block.** -/
theorem State.Matches.applyTransactions (h : state.Matches ledger)
    (hsetting : Setting rules valid height) {previous : Option U32}
    {transactions : List Transaction}
    (hreadable : ∀ transaction ∈ transactions, ∀ op ∈ transaction.operation, Readable op)
    (hinv : ledger.Inv rules.parameters height (nextIndex previous))
    (hcheck : checkTransactions previous transactions = .ok ()) :
    ∃ decisions transitions next,
      state.applyTransactions rules.parameters valid height transactions =
        .ok ((decisions, transitions), next) ∧
      tracedDecisions transactions (ledger.applyTransactions rules height transactions).1 =
        some decisions ∧
      Alike (state.AllInOrder rules.parameters valid height transactions) transitions
        (ledger.applyTransactions rules height transactions).2.1 next
        (ledger.applyTransactions rules height transactions).2.2 := by
  induction transactions generalizing state ledger previous with
  | nil =>
    exact ⟨[], [], state, rfl, rfl, h, rfl,
      by simp [State.AllInOrder, Ledger.applyTransactions]⟩
  | cons transaction rest ih =>
    obtain ⟨hbound, -, hlater⟩ := checkTransactions_cons hcheck
    obtain ⟨first, middle, happly, hfirst⟩ := h.applyTransaction hsetting
      (hreadable transaction List.mem_cons_self) hinv hbound
    obtain ⟨decisions, last, next, hrun, hdecisions, hlast⟩ := ih hfirst.records
      (fun t ht ↦ hreadable t (List.mem_cons_of_mem transaction ht))
      (show Ledger.Inv _ _ _ (nextIndex (some transaction.txIndex)) from
        hinv.applyTransaction hbound) hlater
    refine ⟨traced transaction (ledger.applyTransaction rules height transaction).1 :: decisions,
      first ++ last, next, ?_, ?_, hlast.records, ?_, ?_⟩
    · rw [State.applyTransactions, happly]
      simp only [bind, Except.bind, hrun]
      rfl
    · rw [Ledger.applyTransactions, tracedDecisions, hdecisions]
      rfl
    · rw [Ledger.applyTransactions, List.length_append, List.length_append, hfirst.length_eq,
        hlast.length_eq]
    · -- lists of the same lengths are equal piece by piece
      rw [Ledger.applyTransactions, List.map_append]
      constructor
      · intro heq
        obtain ⟨hleft, hright⟩ := List.append_inj heq (by rw [List.length_map, hfirst.length_eq])
        refine ⟨hfirst.transitions_eq_iff.1 hleft, fun result next' hnext ↦ ?_⟩
        rw [happly, Except.ok.injEq, Prod.mk.injEq] at hnext
        rw [← hnext.2]
        exact hlast.transitions_eq_iff.1 hright
      · rintro ⟨hin, hall⟩
        rw [hfirst.transitions_eq_iff.2 hin, hlast.transitions_eq_iff.2 (hall _ _ happly)]

end Transactions

/-! ### Accepted operations -/

/-- An operation is accepted under its own kind. -/
theorem title_of_accepted {ledger : Ledger} {rules : Rules} {height : U32}
    {transaction : Transaction} {accepted : Accepted}
    (h : (ledger.applyOperation rules height transaction).1.accepted = some accepted) :
    title (operationKind transaction.operation) = accepted.debug := by
  rw [Ledger.applyOperation] at h
  rcases hoperation : transaction.operation with - | (commitment | op | op)
  · rw [hoperation] at h
    exact absurd h (by simp)
  · rw [hoperation] at h
    rw [← Option.some.inj h]
    rfl
  · rw [hoperation] at h
    dsimp only at h
    rcases hrevealed : ledger.revealed rules height transaction op with clause | ⟨id, head⟩
    · rw [hrevealed] at h
      exact absurd h (by simp)
    · rw [hrevealed] at h
      rw [← Option.some.inj h]
      rfl
  · rw [hoperation] at h
    dsimp only at h
    rcases hrefreshed : ledger.refreshed rules height transaction op with clause | ⟨id, head⟩
    · rw [hrefreshed] at h
      exact absurd h (by simp)
    · rw [hrefreshed] at h
      rw [← Option.some.inj h]
      rfl

theorem accepted_eq {ledger : Ledger} {rules : Rules} {height : U32}
    {transactions : List Transaction} {decisions : List TracedOperation}
    (h : tracedDecisions transactions (ledger.applyTransactions rules height transactions).1 =
      some decisions) :
    ((decisions.filter fun decision ↦ decision.accepted = some true).map fun decision ↦
        title decision.kind) =
      ((ledger.applyTransactions rules height transactions).1.filterMap
        OperationDecision.accepted).map Accepted.debug := by
  induction transactions generalizing ledger decisions with
  | nil =>
    rw [← Option.some.inj h]
    rfl
  | cons transaction rest ih =>
    rw [Ledger.applyTransactions, tracedDecisions, Option.bind_eq_bind,
      Option.bind_eq_some_iff] at h
    obtain ⟨later, hlater, hdecisions⟩ := h
    rw [← Option.some.inj hdecisions, Ledger.applyTransactions]
    dsimp only
    rw [List.filter_cons, List.filterMap_cons]
    rcases haccepted : (ledger.applyTransaction rules height transaction).1.accepted with
      - | accepted
    · exact ih hlater
    · have htitle := title_of_accepted (show
        (ledger.applyOperation rules height transaction).1.accepted = some accepted from haccepted)
      dsimp only [Option.isSome_some]
      rw [if_pos (decide_eq_true rfl), List.map_cons, List.map_cons, ih hlater, htitle]

/-! ### Blocks -/

/-- The state of the checker is that of the reducer. -/
structure Agrees (checker : Reducer) (reducer : CoppiceNames.Reducer) : Prop where
  parameters : checker.parameters = reducer.rules.parameters
  nextHeight : checker.nextHeight = reducer.nextHeight.map Fin.val
  tip : checker.tip = reducer.tip
  previousHash : checker.previousHash = reducer.previousHash
  records : checker.toState.Matches reducer.ledger

/-- The positions of the actions fit a `u32`, in a block that stands at the tip of the checker. -/
def Reducer.BlockFits (checker : Reducer) (block : Block) : Prop :=
  checker.nextHeight = some block.height.val → block.prevHash = checker.previousHash →
    PositionsFit none block.transactions

namespace Agrees

variable {checker : Reducer} {reducer : CoppiceNames.Reducer}

/-- **Admission.** The two admit the same blocks, and refuse the others with the same error, where
the positions fit. A block where they do not is refused for its actions by the checker, and by the
reducer not, or not for these. -/
theorem validateBlock_spec (h : Agrees checker reducer) (block : Block)
    (referenced : List ReferencedCommit) :
    checker.BlockFits block ∧ checker.validateBlock block referenced =
        refusal (admission reducer.rules.parameters reducer.nextHeight reducer.previousHash
          reducer.commits block referenced) ∨
      ¬ checker.BlockFits block ∧
        checker.validateBlock block referenced = some ApplyError.nonCanonicalActionIndex.debug ∧
        admission reducer.rules.parameters reducer.nextHeight reducer.previousHash
          reducer.commits block referenced ≠ .error .nonCanonicalActionIndex := by
  have hheight : checker.nextHeight ≠ some block.height.val ↔ some block.height ≠
      reducer.nextHeight := by
    rw [h.nextHeight, not_iff_not, eq_comm, ← Option.map_some,
      (Option.map_injective Fin.val_injective).eq_iff]
  rw [Reducer.validateBlock, admission, h.parameters]
  by_cases hnext : some block.height ≠ reducer.nextHeight
  · rw [if_pos (hheight.2 hnext), if_pos hnext]
    exact Or.inl ⟨fun hat ↦ absurd hat (hheight.2 hnext), rfl⟩
  rw [if_neg (mt hheight.1 hnext), if_neg hnext]
  by_cases hhash : block.prevHash ≠ reducer.previousHash
  · rw [if_pos (h.previousHash ▸ hhash), if_pos hhash]
    exact Or.inl ⟨fun _ hat ↦ absurd (hat.trans h.previousHash) hhash, rfl⟩
  rw [if_neg (h.previousHash ▸ hhash), if_neg hhash]
  have hat : checker.BlockFits block ↔ PositionsFit none block.transactions :=
    ⟨fun hfits ↦ hfits (not_ne_iff.1 (mt hheight.1 hnext))
      ((not_ne_iff.1 hhash).trans h.previousHash.symm), fun hfits _ _ ↦ hfits⟩
  rw [hat]
  obtain ⟨hfits, hindices⟩ | ⟨hlong, hindices⟩ := indexError_spec none block.transactions
  · refine Or.inl ⟨hfits, ?_⟩
    rw [hindices]
    rcases checkTransactions none block.transactions with e | -
    · rfl
    · exact evidenceError_eq h.records.commits (fun _ ↦ by simp) block referenced
  · refine Or.inr ⟨hlong, by rw [hindices], ?_⟩
    rcases hcheck : checkTransactions none block.transactions with e | -
    · intro heq
      exact hlong fun _ _ _ _ _ _ ↦ hcheck.trans (congrArg Except.error (Except.error.inj heq))
    · exact supply_ne_nonCanonicalActionIndex

theorem validateBlock_eq (h : Agrees checker reducer) {block : Block}
    (hfits : checker.BlockFits block) (referenced : List ReferencedCommit) :
    checker.validateBlock block referenced =
      refusal (admission reducer.rules.parameters reducer.nextHeight reducer.previousHash
        reducer.commits block referenced) := by
  obtain ⟨-, heq⟩ | ⟨hlong, -⟩ := h.validateBlock_spec block referenced
  · exact heq
  · exact absurd hfits hlong

theorem resolve_eq (h : Agrees checker reducer) {name : Name} {id : NameId}
    (hid : name.id = .ok id) (height : U32) :
    checker.resolve name height = .ok (tracedResolution (.ok (reducer.resolve name height))) := by
  have hhead : checker.heads.get? id = reducer.heads[id]?.map view := h.records.heads id
  rw [Reducer.resolve, CoppiceNames.Reducer.resolve, parseName_asStr, hid]
  simp only [bind, Except.bind, nameId_eq_ok hid, hhead]
  rcases reducer.heads[id]? with - | head
  · rfl
  simp only [Option.map_some, h.parameters, lifecycle_view]
  rcases head.lifecycle height reducer.rules.parameters with - | - | -
  · rfl
  · rfl
  · rfl

/-- **The state shown.** Every tracked name resolves the same, every tracked COMMIT is the same. -/
theorem snapshot_eq (h : Agrees checker reducer) {tracked : Tracked}
    (hnames : ∀ name ∈ tracked.names, ∃ id, name.id = .ok id) :
    checker.snapshot tracked = .ok (reducer.fullSnapshot tracked) := by
  have hpending : (tracked.commitRefs.map fun reference ↦
      (reference, (checker.commits.get? reference).map fieldHex)) =
      tracked.commitRefs.map fun reference ↦
        (reference, reducer.commits[reference]?.map Commitment.bytes) := by
    refine List.map_congr_left fun reference _ ↦ ?_
    have hcommit : checker.commits.get? reference =
        reducer.commits[reference]?.map fun commitment ↦ parseField commitment.bytes :=
      h.records.commits reference
    rw [hcommit, Option.map_map]
    simp only [Function.comp_def, fieldHex_parseField]
  rw [Reducer.snapshot, CoppiceNames.Reducer.fullSnapshot, h.tip, h.parameters, hpending]
  rw [Except.mapM_eq_ok_map (g := fun name ↦
    (name, tracedResolution (reducer.resolveAuthenticated name
    ((reducer.tip.map ReducerTip.height).getD reducer.rules.parameters.activationHeight))))]
  · rfl
  intro name hname
  obtain ⟨id, hid⟩ := hnames name hname
  rw [CoppiceNames.Reducer.resolveAuthenticated, CoppiceNames.Reducer.tip]
  rcases reducer.tipHeight with - | tip
  · have hnever : U32.checkedSub reducer.rules.parameters.activationHeight 1 ≠
        some reducer.rules.parameters.activationHeight := by
      intro hsub
      obtain ⟨hle, hval⟩ := U32.checkedSub_eq_some_iff.1 hsub
      have hone : (1 : U32).val = 1 := rfl
      rw [Fin.le_def, hone] at hle
      rw [hone] at hval
      omega
    simp only [Option.map_none, Option.isSome_none, Bool.false_eq_true, if_false, Option.getD_none]
    rw [if_neg hnever]
    rfl
  · simp only [Option.map_some, Option.isSome_some, if_true, Option.getD_some, h.resolve_eq hid]
    rw [if_neg (by simp), if_neg (by simp)]
    rfl

/-- The block-start phases. -/
theorem startBlock (h : Agrees checker reducer) {block : Block}
    {referenced : List ReferencedCommit} {supplied : OrderedMap CommitRef Commitment}
    (hsupply : supply reducer.rules.parameters reducer.commits block ∅ referenced = .ok supplied) :
    (checker.toState.startBlock checker.parameters block.height referenced).1 =
        ((reducer.ledger.markExpired block.height).compactions reducer.rules.parameters
          block.height).map Compaction.traced ∧
      (checker.toState.startBlock checker.parameters block.height referenced).2.Matches
        (reducer.ledger.startBlock reducer.rules.parameters block.height supplied) := by
  have hexpired := h.records.markExpired block.height
  rw [h.parameters]
  exact ⟨hexpired.compacted_eq _ _,
    ((hexpired.compactClaimable _ _).pruneCommits reducer.rules.valid _).addEvidence hsupply⟩

end Agrees

/-- The values of a block are ones that both sides parse, and a lease from its height on fits. -/
structure Parsed (parameters : Parameters) (block : Block) : Prop where
  lease : block.height.val + parameters.leaseBlocks.val ≤ 4294967295
  readable : ∀ transaction ∈ block.transactions, ∀ op ∈ transaction.operation, Readable op

/-- The transactions of an admitted block find their heads in order. -/
def Reducer.BlockInOrder (checker : Reducer) (valid : List UInt8 → Bool) (block : Block)
    (referenced : List ReferencedCommit) : Prop :=
  checker.validateBlock block referenced = none →
    (checker.toState.startBlock checker.parameters block.height referenced).2.AllInOrder
      checker.parameters valid block.height block.transactions

/-- The checker after an admitted block. -/
def Reducer.afterBlock (checker : Reducer) (block : Block) (state : State) : Reducer :=
  { commits := state.commits
    heads := state.heads
    nextHeight := if block.height.val < 4294967295 then some (block.height.val + 1) else none
    tip := some ⟨block.height, block.hash⟩
    previousHash := block.hash
    parameters := checker.parameters
    history := checker.history ++ [checker.toState] }

theorem Reducer.apply_of_admitted {checker : Reducer} {valid : List UInt8 → Bool} {block : Block}
    {referenced : List ReferencedCommit} {decisions : List TracedOperation}
    {transitions : List Transition} {state : State}
    (hvalues : validateValues block.transactions = .ok ())
    (hadmitted : checker.validateBlock block referenced = none)
    (hrun : (checker.toState.startBlock checker.parameters block.height
        referenced).2.applyTransactions checker.parameters valid block.height block.transactions =
      .ok ((decisions, transitions), state)) :
    checker.apply valid block referenced =
      .ok (.applied ((decisions.filter fun decision ↦ decision.accepted = some true).map
          fun decision ↦ title decision.kind) decisions
        ((checker.toState.startBlock checker.parameters block.height referenced).1 ++ transitions),
        checker.afterBlock block state) := by
  rw [Reducer.apply, hvalues, hadmitted]
  simp only [bind, Except.bind, hrun]
  rfl

omit [Primitives] in
/-- The two file an error under the same clause. -/
theorem applyErrorClause_debug (e : ApplyError) :
    applyErrorClause e.debug = CoppiceNames.applyErrorClause e := by
  rcases e with - | - | - | - | - | - | - <;> decide

/-- **Blocks.** A refused block is refused by both. An admitted block leads to agreeing states, and
its results are the same when its transactions find their heads in order. -/
theorem Agrees.apply {checker : Reducer} {reducer : CoppiceNames.Reducer}
    {valid : List UInt8 → Bool} (h : Agrees checker reducer)
    (hindexed : reducer.toRecords.Indexed) (hinv : reducer.scan.Inv)
    (hverifier : reducer.rules.verifier = ProofVerdicts valid) {block : Block}
    (hparsed : Parsed reducer.rules.parameters block) (hfits : checker.BlockFits block)
    (referenced : List ReferencedCommit) :
    (∃ e result, reducer.applyBlockDetailed block referenced = some (.error e, reducer) ∧
      applyResult block (.error e) = some result ∧
      checker.apply valid block referenced = .ok (result, checker) ∧
      checker.BlockInOrder valid block referenced) ∨
    ∃ outcome next result result' checker',
      reducer.applyBlockDetailed block referenced = some (.ok outcome, next) ∧
      applyResult block (.ok outcome) = some result ∧
      checker.apply valid block referenced = .ok (result', checker') ∧
      Agrees checker' next ∧ checker'.parameters = checker.parameters ∧
      checker'.history = checker.history ++ [checker.toState] ∧
      checker'.tip = some ⟨block.height, block.hash⟩ ∧
      (result = result' ↔ checker.BlockInOrder valid block referenced) := by
  have hvalues := validateValues_of_readable hparsed.readable
  have hvalidate := h.validateBlock_eq hfits referenced
  rcases CoppiceNames.Reducer.applyBlockDetailed_spec hindexed block referenced with
    ⟨e, hadmission, hfailed, -⟩ | ⟨outcome, o, s, hok, -, hscan, haccepted, hdecisions,
      hterminated, hcompacted, -⟩
  · rw [hadmission] at hvalidate
    have hrefused : checker.validateBlock block referenced = some e.debug := hvalidate
    refine Or.inl ⟨e, _, hfailed, rfl, ?_, fun hnone ↦ ?_⟩
    · rw [Reducer.apply, hvalues, hrefused]
      simp only [bind, Except.bind, applyErrorClause_debug]
      rfl
    · rw [hrefused] at hnone
      exact absurd hnone (by simp)
  obtain ⟨supplied, hheight, hhash, hcheck, hsupply, hnext, hdecided, hspent⟩ :=
    ScanReducer.applyBlock_eq_ok hscan
  have hadmission := admission_of_checks hheight hhash hcheck hsupply
  have hadmitted : checker.validateBlock block referenced = none := by
    rw [hvalidate]
    exact congrArg refusal hadmission
  have hreported : s.accepted = s.decisions.filterMap OperationDecision.accepted ∧
      s.compacted = (reducer.ledger.markExpired block.height).compactions
        reducer.rules.parameters block.height := by
    rw [ScanReducer.applyBlock, hadmission, Except.ok.injEq, Prod.mk.injEq] at hscan
    rw [← hscan.1]
    exact ⟨rfl, rfl⟩
  have hstarted := hinv.startBlock hheight hsupply
  have hsetting : Setting reducer.rules valid block.height :=
    ⟨hverifier, hstarted.activation_le, hparsed.lease⟩
  obtain ⟨htransitions, hmatches⟩ := h.startBlock hsupply
  obtain ⟨decisions, transitions, state, hrun, htraced, halike⟩ :=
    hmatches.applyTransactions hsetting hparsed.readable
      (show Ledger.Inv _ _ _ (nextIndex none) from hstarted) hcheck
  rw [← h.parameters] at hrun
  have hledger : (reducer.closeBlock block o).ledger = ((reducer.ledger.startBlock
      reducer.rules.parameters block.height supplied).applyTransactions reducer.rules block.height
        block.transactions).2.2 := congrArg ScanReducer.ledger hnext
  have hresult : applyResult block (.ok outcome) = some (.applied
      ((((reducer.ledger.startBlock reducer.rules.parameters
        block.height supplied).applyTransactions
        reducer.rules block.height block.transactions).1.filterMap
          OperationDecision.accepted).map Accepted.debug) decisions
      ((checker.toState.startBlock checker.parameters block.height referenced).1 ++
        ((reducer.ledger.startBlock reducer.rules.parameters
          block.height supplied).applyTransactions
          reducer.rules block.height block.transactions).2.1.map Termination.traced)) := by
    have htraced' : tracedDecisions block.transactions outcome.decisions = some decisions := by
      rw [hdecisions, hdecided]
      exact htraced
    rw [applyResult, htraced', haccepted, hreported.1, hdecided,
      hcompacted (hinv.oneTerminal hheight), hreported.2, ← htransitions, hterminated, hspent]
    rfl
  refine Or.inr ⟨outcome, reducer.closeBlock block o, _, _, checker.afterBlock block state, hok,
    hresult, Reducer.apply_of_admitted hvalues hadmitted hrun, ?_, rfl, rfl, rfl, ?_⟩
  · refine ⟨h.parameters, ?_, rfl, rfl, ?_⟩
    · have hone : (1 : U32).val = 1 := rfl
      dsimp only [Reducer.afterBlock, CoppiceNames.Reducer.closeBlock, U32.checkedAdd]
      rw [hone]
      by_cases hlast : block.height.val < 4294967295
      · rw [if_pos hlast, dif_pos (by omega)]
        rfl
      · rw [if_neg hlast, dif_neg (by omega)]
        rfl
    · rw [hledger]
      exact ⟨halike.records.commits, halike.records.heads⟩
  · rw [accepted_eq htraced, ApplyResult.applied.injEq, List.append_right_inj,
      eq_comm (b := transitions),
      halike.transitions_eq_iff, Reducer.BlockInOrder, h.parameters]
    simp only [hadmitted, true_and, forall_const]

/-- **Blocks whose positions do not fit.** The results differ. -/
theorem Agrees.apply_ne {checker checker' : Reducer} {reducer next : CoppiceNames.Reducer}
    {valid : List UInt8 → Bool} (h : Agrees checker reducer)
    (hindexed : reducer.toRecords.Indexed) {block : Block}
    (hparsed : Parsed reducer.rules.parameters block) (hfits : ¬ checker.BlockFits block)
    {referenced : List ReferencedCommit} {r : Except ApplyError BlockOutcome}
    {result result' : ApplyResult}
    (hreducer : reducer.applyBlockDetailed block referenced = some (r, next))
    (hresult : applyResult block r = some result)
    (hchecker : checker.apply valid block referenced = .ok (result', checker')) :
    result ≠ result' := by
  obtain ⟨hfit, -⟩ | ⟨-, hrefused, hadmitted⟩ := h.validateBlock_spec block referenced
  · exact absurd hfit hfits
  have hvalues := validateValues_of_readable hparsed.readable
  rw [Reducer.apply, hvalues, hrefused] at hchecker
  obtain ⟨rfl, -⟩ := Prod.mk.inj (Except.ok.inj hchecker)
  rcases CoppiceNames.Reducer.applyBlockDetailed_spec hindexed block referenced with
    ⟨e, hadmission, hfailed, -⟩ | ⟨outcome, o, s, hok, -⟩
  · rw [hfailed, Option.some.injEq, Prod.mk.injEq] at hreducer
    rw [← hreducer.1, applyResult, Option.some.injEq] at hresult
    rw [← hresult, Ne, ApplyResult.refused.injEq]
    rintro ⟨-, hdebug, -⟩
    refine hadmitted (hadmission.trans ?_)
    cases e with
    | nonCanonicalActionIndex => rfl
    | _ => exact absurd hdebug (by decide)
  · rw [hok, Option.some.injEq, Prod.mk.injEq] at hreducer
    rw [← hreducer.1, applyResult] at hresult
    simp only [Option.bind_eq_bind, Option.bind_eq_some_iff, Option.pure_def,
      Option.some.injEq] at hresult
    obtain ⟨operations, -, hresult⟩ := hresult
    rw [← hresult]
    simp

/-! ### Runs -/

/-- A checker and a reducer that started together and admitted the same blocks. -/
inductive Paired (parameters : Parameters) (valid : List UInt8 → Bool) :
    Reducer → CoppiceNames.Reducer → Prop
  | new {parent : Bytes32} {checker : Reducer} {reducer : CoppiceNames.Reducer}
      (hchecker : Reducer.new parameters parent = .ok checker)
      (hreducer : CoppiceNames.Reducer.new parameters parent (ProofVerdicts valid) = .ok reducer) :
      Paired parameters valid checker reducer
  | apply {checker checker' : Reducer} {reducer next : CoppiceNames.Reducer} {block : Block}
      {referenced : List ReferencedCommit} {outcome : BlockOutcome}
      (h : Paired parameters valid checker reducer)
      (hreducer : reducer.applyBlockDetailed block referenced = some (.ok outcome, next))
      (hagrees : Agrees checker' next) (hparameters : checker'.parameters = checker.parameters)
      (hhistory : checker'.history = checker.history ++ [checker.toState])
      (htip : checker'.tip = some ⟨block.height, block.hash⟩) :
      Paired parameters valid checker' next

namespace Paired

variable {parameters : Parameters} {valid : List UInt8 → Bool} {checker : Reducer}
  {reducer : CoppiceNames.Reducer}

/-- What holds of every pair. -/
theorem spec (h : Paired parameters valid checker reducer) :
    Agrees checker reducer ∧ reducer.toRecords.Indexed ∧ reducer.scan.Inv ∧
      reducer.rules.verifier = ProofVerdicts valid ∧ reducer.rules.parameters = parameters := by
  induction h with
  | new hchecker hreducer =>
    obtain ⟨hvalid, rfl⟩ := CoppiceNames.Reducer.new_eq_ok_iff.1 hreducer
    refine ⟨?_, CoppiceNames.Reducer.indexed_new hreducer, CoppiceNames.Reducer.inv_new hreducer,
      rfl, rfl⟩
    rw [Reducer.new, validateParameters_eq_ok_iff.2 hvalid] at hchecker
    rw [← Except.ok.inj hchecker]
    exact ⟨rfl, rfl, rfl, rfl, fun _ ↦ by simp [Records.ledger, Records.empty],
      fun _ ↦ by simp [Records.ledger, Records.empty]⟩
  | @apply _ _ before next block referenced outcome _ hreducer hagrees _ _ _ ih =>
    obtain ⟨-, hindexed, hinv, hverifier, hparameters⟩ := ih
    have hcall : before.call (.applyBlock block referenced) =
      some (.applied (.ok outcome), next) := by
      rw [CoppiceNames.Reducer.call, hreducer]
      rfl
    obtain ⟨s, hscan, -⟩ := CoppiceNames.Reducer.scan_of_apply hindexed hreducer
    obtain ⟨-, -, -, -, -, o, -, -, -, hnext, -⟩ :=
      CoppiceNames.Reducer.applyBlockDetailed_eq_ok_iff.1 hreducer
    refine ⟨hagrees, CoppiceNames.Reducer.indexed_call hindexed hcall,
      hinv.applyBlock hscan, ?_, ?_⟩
    · rw [hnext]
      exact hverifier
    · rw [hnext]
      exact hparameters

/-- **Rollback.** Both undo the block they admitted last, or refuse with the same error. -/
theorem rollback (h : Paired parameters valid checker reducer) (expected : Bytes32) :
    rollbackResult (reducer.rollbackTipDetailed expected).1 =
        ⟨(checker.rollback expected).1.isNone, (checker.rollback expected).1,
          "NAMES.ROLLBACK.EXACT"⟩ ∧
      Paired parameters valid (checker.rollback expected).2
        (reducer.rollbackTipDetailed expected).2 := by
  cases h with
  | new hchecker hreducer =>
    have hpaired := Paired.new hchecker hreducer
    obtain ⟨hvalid, rfl⟩ := CoppiceNames.Reducer.new_eq_ok_iff.1 hreducer
    rw [Reducer.new, validateParameters_eq_ok_iff.2 hvalid] at hchecker
    rw [← Except.ok.inj hchecker] at hpaired ⊢
    exact ⟨rfl, hpaired⟩
  | @apply before _ reducer' _ block referenced outcome hbefore hreducer hagrees
    hparameters hhistory
      htip =>
    have hindexed := hbefore.spec.2.1
    obtain ⟨delta, hundo⟩ := CoppiceNames.Reducer.rollback_of_apply hindexed hreducer
    have hlast : checker.history.getLast? = some before.toState := by
      rw [hhistory]
      exact List.getLast?_concat
    have hdrop : checker.history.dropLast = before.history := by
      rw [hhistory]
      exact List.dropLast_concat
    by_cases hhash : expected = block.hash
    · have hchecker : checker.rollback expected = (none, before) := by
        rw [Reducer.rollback, hlast, htip, hdrop, hparameters]
        simp [hhash]
      rw [hchecker, hhash, hundo]
      exact ⟨rfl, hbefore⟩
    · have hchecker : checker.rollback expected = (some "WrongTipHash", checker) := by
        rw [Reducer.rollback, hlast, htip]
        simp [Ne.symm hhash]
      obtain ⟨-, -, -, -, -, o, -, -, -, hnext, -⟩ :=
        CoppiceNames.Reducer.applyBlockDetailed_eq_ok_iff.1 hreducer
      have hwrong : reducer.rollbackTipDetailed expected = (.error .wrongTipHash, reducer) := by
        rw [CoppiceNames.Reducer.rollbackTipDetailed, show reducer.history.getLast? =
          some { reducer'.newUndo block.height block.hash with toJournal := o.journal } by
            rw [hnext]; exact List.getLast?_concat]
        exact if_pos (Or.inl (Ne.symm hhash))
      rw [hchecker, hwrong]
      exact ⟨rfl, .apply hbefore hreducer hagrees hparameters hhistory htip⟩

end Paired

/-- What both sides parse, in a step. -/
def ParsedStep (parameters : Parameters) : Step → Prop
  | .apply block _ => Parsed parameters block
  | .rollback _ => True

namespace Reducer

/-- The checker after a step. -/
def next (checker : Reducer) (valid : List UInt8 → Bool) : Step → Except SemanticError Reducer
  | .apply block referenced => (checker.apply valid block referenced).map Prod.snd
  | .rollback expected => .ok (checker.rollback expected).2

/-- The transactions of a step find their heads in order. -/
def StepInOrder (checker : Reducer) (valid : List UInt8 → Bool) : Step → Prop
  | .apply block referenced => checker.BlockInOrder valid block referenced
  | .rollback _ => True

/-- The positions of the actions in a step fit a `u32`. -/
def StepFits (checker : Reducer) : Step → Prop
  | .apply block _ => checker.BlockFits block
  | .rollback _ => True

/-- In every step of a run the positions fit and the transactions find their heads in order. -/
def RunInOrder (checker : Reducer) (valid : List UInt8 → Bool) : List Step → Prop
  | [] => True
  | step :: steps => (checker.StepFits step ∧ checker.StepInOrder valid step) ∧
      ∀ next, checker.next valid step = .ok next → next.RunInOrder valid steps

end Reducer

/-- **One step of a trace.** -/
theorem Paired.traceStep {parameters : Parameters} {valid : List UInt8 → Bool} {checker : Reducer}
    {reducer : CoppiceNames.Reducer} (h : Paired parameters valid checker reducer)
    {tracked : Tracked} (hnames : ∀ name ∈ tracked.names, ∃ id, name.id = .ok id) {step : Step}
    (hparsed : ParsedStep parameters step) (hfits : checker.StepFits step) :
    ∃ entry entry' next checker', reducer.traceStep tracked step = some (entry, next) ∧
      checker.traceStep valid tracked step = .ok (entry', checker') ∧
      checker.next valid step = .ok checker' ∧ Paired parameters valid checker' next ∧
      (entry = entry' ↔ checker.StepInOrder valid step) := by
  obtain ⟨hagrees, hindexed, hinv, hverifier, hparameters⟩ := h.spec
  cases step with
  | apply block referenced =>
    rw [← hparameters] at hparsed
    -- the entries, from the results
    have hleft : ∀ {r : Except ApplyError BlockOutcome} {next : CoppiceNames.Reducer}
        {result : ApplyResult}, reducer.applyBlockDetailed block referenced = some (r, next) →
        applyResult block r = some result →
        reducer.traceStep tracked (.apply block referenced) =
          some (⟨.apply result, next.fullSnapshot tracked⟩, next) := by
      intro r next result hreducer hresult
      rw [CoppiceNames.Reducer.traceStep, hreducer]
      simp only [Option.bind_eq_bind, Option.bind_some, hresult]
      rfl
    have hright : ∀ {result : ApplyResult} {checker' : Reducer} {next : CoppiceNames.Reducer},
        checker.apply valid block referenced = .ok (result, checker') → Agrees checker' next →
        checker.traceStep valid tracked (.apply block referenced) =
            .ok (⟨.apply result, next.fullSnapshot tracked⟩, checker') ∧
          checker.next valid (.apply block referenced) = .ok checker' := by
      intro result checker' next hchecker hnext
      rw [Reducer.traceStep, Reducer.next, hchecker]
      simp only [bind, Except.bind, hnext.snapshot_eq hnames]
      exact ⟨rfl, rfl⟩
    rcases hagrees.apply hindexed hinv hverifier hparsed hfits referenced with
      ⟨e, result, hreducer, hresult, hchecker, hin⟩ |
      ⟨outcome, next, result, result', checker', hreducer, hresult, hchecker, hnext, hsame,
        hhistory, htip, hiff⟩
    · obtain ⟨hentry, hstep⟩ := hright hchecker hagrees
      exact ⟨_, _, reducer, checker, hleft hreducer hresult, hentry, hstep, h,
        fun _ ↦ hin, fun _ ↦ rfl⟩
    · obtain ⟨hentry, hstep⟩ := hright hchecker hnext
      refine ⟨_, _, next, checker', hleft hreducer hresult, hentry, hstep,
        .apply h hreducer hnext hsame hhistory htip, ?_⟩
      rw [TraceEntry.mk.injEq, StepResult.apply.injEq, and_iff_left rfl]
      exact hiff
  | rollback expected =>
    obtain ⟨hresult, hpaired⟩ := h.rollback expected
    have hentry : checker.traceStep valid tracked (.rollback expected) =
        .ok (⟨.rollback (rollbackResult (reducer.rollbackTipDetailed expected).1),
          (reducer.rollbackTipDetailed expected).2.fullSnapshot tracked⟩,
          (checker.rollback expected).2) := by
      rw [Reducer.traceStep, hresult]
      simp only [bind, Except.bind, hpaired.spec.1.snapshot_eq hnames]
      rfl
    exact ⟨_, _, _, _, rfl, hentry, rfl, hpaired, fun _ ↦ trivial, fun _ ↦ rfl⟩

/-- A step whose positions do not fit is traced differently. -/
theorem Paired.traceStep_ne {parameters : Parameters} {valid : List UInt8 → Bool}
    {checker checker' : Reducer} {reducer next : CoppiceNames.Reducer}
    (h : Paired parameters valid checker reducer) {tracked : Tracked} {step : Step}
    (hparsed : ParsedStep parameters step) (hfits : ¬ checker.StepFits step)
    {entry entry' : TraceEntry} (hreducer : reducer.traceStep tracked step = some (entry, next))
    (hchecker : checker.traceStep valid tracked step = .ok (entry', checker')) :
    entry ≠ entry' := by
  obtain ⟨hagrees, hindexed, -, -, hparameters⟩ := h.spec
  cases step with
  | apply block referenced =>
    rw [← hparameters] at hparsed
    rw [CoppiceNames.Reducer.traceStep] at hreducer
    simp only [Option.bind_eq_bind, Option.bind_eq_some_iff, Option.pure_def, Option.some.injEq,
      Prod.exists, Prod.mk.injEq] at hreducer
    obtain ⟨r, _, happly, result, hresult, rfl, -⟩ := hreducer
    rw [Reducer.traceStep] at hchecker
    obtain ⟨⟨result', _⟩, happly', hchecker⟩ := Except.bind_eq_ok_iff.1 hchecker
    obtain ⟨state, -, hchecker⟩ := Except.bind_eq_ok_iff.1 hchecker
    obtain ⟨rfl, -⟩ := Prod.mk.inj (Except.ok.inj hchecker)
    intro heq
    exact hagrees.apply_ne hindexed hparsed hfits happly hresult happly'
      (StepResult.apply.inj (TraceEntry.mk.inj heq).1)
  | rollback expected => exact absurd trivial hfits

/-- **Whole traces.** They are the same exactly when every entry is. -/
theorem Paired.trace_eq_iff {parameters : Parameters} {valid : List UInt8 → Bool}
    {checker : Reducer} {reducer : CoppiceNames.Reducer}
    (h : Paired parameters valid checker reducer) {tracked : Tracked}
    (hnames : ∀ name ∈ tracked.names, ∃ id, name.id = .ok id) {steps : List Step}
    (hparsed : ∀ step ∈ steps, ParsedStep parameters step) :
    (∃ trace, reducer.trace tracked steps = some trace ∧
      checker.trace valid tracked steps = .ok trace) ↔ checker.RunInOrder valid steps := by
  induction steps generalizing checker reducer with
  | nil => exact ⟨fun _ ↦ trivial, fun _ ↦ ⟨[], rfl, rfl⟩⟩
  | cons step steps ih =>
    have hfirst := hparsed step List.mem_cons_self
    have hlater : ∀ s ∈ steps, ParsedStep parameters s :=
      fun s hs ↦ hparsed s (List.mem_cons_of_mem step hs)
    simp only [CoppiceNames.Reducer.trace_cons_eq_some_iff, Reducer.trace_cons_eq_ok_iff]
    rw [Reducer.RunInOrder]
    by_cases hfits : checker.StepFits step
    · obtain ⟨entry, entry', next, checker', hreducer, hchecker, hstep, hpaired, hsame⟩ :=
        h.traceStep hnames hfirst hfits
      simp only [hreducer, hchecker, hstep, Option.some.injEq, Except.ok.injEq, Prod.mk.injEq,
        hfits, true_and, forall_eq', ← hsame, ← ih hpaired hlater]
      constructor
      · rintro ⟨_, ⟨_, _, rest, ⟨rfl, rfl⟩, hrest, rfl⟩, _, _, rest', ⟨rfl, rfl⟩, hrest', heq⟩
        obtain ⟨hentry, hcommon⟩ := List.cons.inj heq
        exact ⟨hentry, rest, hrest, hcommon ▸ hrest'⟩
      · rintro ⟨rfl, rest, hrest, hrest'⟩
        exact ⟨entry :: rest, ⟨entry, next, rest, ⟨rfl, rfl⟩, hrest, rfl⟩,
          entry, checker', rest, ⟨rfl, rfl⟩, hrest', rfl⟩
    · constructor
      · rintro ⟨_, ⟨entry, next, rest, hreducer, -, rfl⟩, entry', checker', rest', hchecker, -,
          heq⟩
        exact absurd (List.cons.inj heq).1 (h.traceStep_ne hfirst hfits hreducer hchecker)
      · rintro ⟨⟨hfit, -⟩, -⟩
        exact absurd hfit hfits

/-- **Reducer and checker agree up to the order of terminations.** For all valid parameters and
every sequence of `apply` and `rollback` steps with values that both sides parse, the two traces are
the same — results, clauses, transitions, tips, pending COMMITs and resolutions, after every step —
exactly when the positions of the actions fit a `u32` and every transaction finds the heads it
terminates in the checker's dictionary in the order of their names. -/
theorem checker_trace_eq_iff {parameters : Parameters} {parent : Bytes32}
    {valid : List UInt8 → Bool} {reducer : CoppiceNames.Reducer} {checker : Reducer}
    (hreducer : CoppiceNames.Reducer.new parameters parent (ProofVerdicts valid) = .ok reducer)
    (hchecker : Reducer.new parameters parent = .ok checker) {tracked : Tracked}
    (hnames : ∀ name ∈ tracked.names, ∃ id, name.id = .ok id) {steps : List Step}
    (hparsed : ∀ step ∈ steps, ParsedStep parameters step) :
    (∃ trace, reducer.trace tracked steps = some trace ∧
      checker.trace valid tracked steps = .ok trace) ↔ checker.RunInOrder valid steps :=
  (Paired.new hchecker hreducer).trace_eq_iff hnames hparsed

end Agreement

/-! ### Two names in one transaction

The digests of `bob` and `carol` are the real ones. `bob` comes first in the dictionary, `carol` in
the order of the identifiers. -/

namespace TwoNames

/-- The label `bob`. -/
def bob : Name := ⟨lit "bob", by decide⟩

/-- The label `carol`. -/
def carol : Name := ⟨lit "carol", by decide⟩

/-- The candidate behind the identifier of `bob`. -/
def bobField : PallasBase :=
  4135817296727985905194668541757406398087088994765002746813747809878370997237

/-- The candidate behind the identifier of `carol`. -/
def carolField : PallasBase :=
  22196665781690229218654960827923467676338255575136957085773289813070558236914

/-- The primitives, tabulated where the run below evaluates them. -/
scoped instance primitives : Primitives where
  wideField _ input := if input = bob.idInput 0 then bobField
    else if input = carol.idInput 0 then carolField else 1
  blake2b256 _ input :=
    if input = List.replicate 32 8 ++ bobField.toRepr.toList then
      #v[171, 183, 197, 50, 194, 185, 220, 206, 103, 79, 82, 37, 184, 222, 219, 0,
        154, 182, 199, 33, 139, 249, 138, 105, 70, 74, 173, 176, 33, 2, 112, 189]
    else if input = List.replicate 32 8 ++ carolField.toRepr.toList then
      #v[68, 252, 1, 162, 59, 103, 182, 36, 219, 230, 232, 157, 223, 156, 26, 181,
        154, 96, 68, 23, 110, 115, 124, 173, 218, 156, 226, 204, 249, 57, 254, 124]
    else Vector.replicate 32 0
  recodeUa value := if value.bytes = lit Sample.uaText then some value else none
  maxApplicationPayloadLen := 16384
  canonicalManifest := []

/-- The address, canonical for regtest. -/
def ua : CanonicalUa :=
  ⟨⟨lit Sample.uaText, Sample.uaText_utf8⟩, .regtest, by decide +kernel⟩

/-- `ExplicitProofVerdicts`. -/
def verdict (proof : List UInt8) : Bool := proof == [1]

/-- A COMMIT at a position. -/
def commitAt (index : U32) : Transaction :=
  ⟨index, Vector.replicate 32 10, [⟨0, Sample.field 3, Sample.field 4⟩],
    some (.commit Sample.commitment)⟩

/-- The REVEAL of a name at a position, under the COMMIT at the same position. -/
def revealAt (index : U32) (name : Name) (futureNf : PallasBase) : Transaction :=
  ⟨index, Vector.replicate 32 11, [⟨0, Sample.field 5, Sample.field 6⟩], some (.reveal
    { name := name
      commit := ⟨1, index, Vector.replicate 32 10⟩
      ua := ua
      actionIndex := 0
      successorFutureNf := Sample.field futureNf
      proof := [1] })⟩

/-- One transaction that spends both heads. -/
def spendBoth : Transaction :=
  ⟨0, Vector.replicate 32 12,
    [⟨0, Sample.field 21, Sample.field 8⟩, ⟨1, Sample.field 22, Sample.field 9⟩], none⟩

/-- Two COMMITs, the REVEALs of two names, the spend of both, and a rollback. -/
def steps (first second : Name) : List Step :=
  [.apply ⟨0, Vector.replicate 32 1, Sample.parent, []⟩ [],
    .apply ⟨1, Vector.replicate 32 2, Vector.replicate 32 1, [commitAt 0, commitAt 1]⟩ [],
    .apply ⟨2, Vector.replicate 32 3, Vector.replicate 32 2,
      [revealAt 0 first 21, revealAt 1 second 22]⟩ [],
    .apply ⟨3, Vector.replicate 32 4, Vector.replicate 32 3, [spendBoth]⟩ [],
    .rollback (Vector.replicate 32 4)]

/-- The names and COMMITs that the case tracks. -/
def tracked : Tracked := ⟨[bob, carol], [⟨1, 0, Vector.replicate 32 10⟩]⟩

/-- A new reducer. -/
def reducer : CoppiceNames.Reducer :=
  { Records.empty with
    rules := ⟨Sample.parameters, ProofVerdicts verdict, Sample.parameters_valid⟩
    nextHeight := some 0
    tipHeight := none
    previousHash := Sample.parent
    history := [] }

/-- A new checker. -/
def checker : Reducer :=
  { parameters := Sample.parameters
    nextHeight := some 0
    tip := none
    previousHash := Sample.parent
    commits := Dict.empty
    heads := Dict.empty
    history := [] }

theorem new_eq_reducer : CoppiceNames.Reducer.new Sample.parameters Sample.parent
    (ProofVerdicts verdict) = .ok reducer :=
  CoppiceNames.Reducer.new_eq_ok_iff.2 ⟨Sample.parameters_valid, rfl⟩

theorem new_eq_checker : Reducer.new Sample.parameters Sample.parent = .ok checker := by
  rw [Reducer.new, validateParameters_eq_ok_iff.2 Sample.parameters_valid]
  rfl

/-- The identifier of `bob`. -/
def bobId : NameId := NameId.ofField bobField (by decide)

/-- The identifier of `carol`. -/
def carolId : NameId := NameId.ofField carolField (by decide)

theorem bob_id : bob.id = .ok bobId := by
  decide +kernel

theorem carol_id : carol.id = .ok carolId := by
  decide +kernel

theorem ua_canonicalFor : ua.CanonicalFor .regtest := by
  decide +kernel

theorem tracked_names : ∀ name ∈ tracked.names, ∃ id, name.id = .ok id := by
  intro name hname
  rcases List.mem_pair.1 hname with rfl | rfl
  · exact ⟨bobId, bob_id⟩
  · exact ⟨carolId, carol_id⟩

/-- Both sides parse every value of the steps. -/
theorem steps_parsed {first second : Name} (hfirst : ∃ id, first.id = .ok id)
    (hsecond : ∃ id, second.id = .ok id) :
    ∀ step ∈ steps first second, ParsedStep Sample.parameters step := by
  intro step hstep
  simp only [steps, List.mem_cons, List.not_mem_nil, or_false] at hstep
  obtain rfl | rfl | rfl | rfl | rfl := hstep
  · exact ⟨by decide, by simp⟩
  · refine ⟨by decide, fun transaction htransaction op hop ↦ ?_⟩
    rcases List.mem_pair.1 htransaction with rfl | rfl
    · rw [← Option.some.inj hop]
      trivial
    · rw [← Option.some.inj hop]
      trivial
  · refine ⟨show (2 : U32).val + Sample.parameters.leaseBlocks.val ≤ 4294967295 by decide,
      fun transaction htransaction op hop ↦ ?_⟩
    rcases List.mem_pair.1 htransaction with rfl | rfl
    · rw [← Option.some.inj hop]
      exact ⟨hfirst, ua_canonicalFor⟩
    · rw [← Option.some.inj hop]
      exact ⟨hsecond, ua_canonicalFor⟩
  · refine ⟨by decide, fun transaction htransaction op hop ↦ ?_⟩
    rw [List.mem_singleton.1 htransaction] at hop
    exact absurd hop (by simp [spendBoth])
  · trivial

/-- The names of the transitions of a step. -/
def transitionNames (entry : TraceEntry) : List NameId :=
  match entry.result with
  | .apply (.applied _ _ transitions) => transitions.map Transition.nameId
  | _ => []

/-- **The traces differ.** All values are parsed by both sides, and the transaction that spends both
heads is reported with `carol` first by the reducer and with `bob` first by the checker. -/
theorem two_names_diverge :
    (∀ step ∈ steps bob carol, ParsedStep Sample.parameters step) ∧
    (reducer.trace tracked (steps bob carol)).map (fun trace ↦ trace.map transitionNames) =
      some [[], [], [], [carolId, bobId], []] ∧
    (checker.trace verdict tracked (steps bob carol)).toOption.map
      (fun trace ↦ trace.map transitionNames) = some [[], [], [], [bobId, carolId], []] ∧
    ¬ ∃ trace, reducer.trace tracked (steps bob carol) = some trace ∧
      checker.trace verdict tracked (steps bob carol) = .ok trace := by
  have hreducer : (reducer.trace tracked (steps bob carol)).map
      (fun trace ↦ trace.map transitionNames) = some [[], [], [], [carolId, bobId], []] := by
    decide +kernel
  have hchecker : (checker.trace verdict tracked (steps bob carol)).toOption.map
      (fun trace ↦ trace.map transitionNames) = some [[], [], [], [bobId, carolId], []] := by
    decide +kernel
  refine ⟨steps_parsed ⟨bobId, bob_id⟩ ⟨carolId, carol_id⟩, hreducer, hchecker, ?_⟩
  rintro ⟨trace, htrace, htrace'⟩
  rw [htrace, Option.map_some] at hreducer
  rw [htrace', show (Except.ok trace : Except SemanticError _).toOption = some trace from rfl,
    Option.map_some, hreducer] at hchecker
  exact absurd hchecker (by decide +kernel)

/-- Revealed in the order of their identifiers, the two names are terminated in that order by
both. -/
theorem checker_trace_eq_iff_two_names :
    checker.RunInOrder verdict (steps carol bob) ∧
    ∃ trace, reducer.trace tracked (steps carol bob) = some trace ∧
      checker.trace verdict tracked (steps carol bob) = .ok trace := by
  have hsame : ∃ trace, reducer.trace tracked (steps carol bob) = some trace ∧
      checker.trace verdict tracked (steps carol bob) = .ok trace := by
    have heq : (reducer.trace tracked (steps carol bob)).isSome = true ∧
        (checker.trace verdict tracked (steps carol bob)).toOption =
          reducer.trace tracked (steps carol bob) := by
      decide +kernel
    obtain ⟨trace, htrace⟩ := Option.isSome_iff_exists.1 heq.1
    refine ⟨trace, htrace, ?_⟩
    rcases hchecker : checker.trace verdict tracked (steps carol bob) with e | trace'
    · rw [hchecker, htrace] at heq
      exact absurd heq.2 (by simp [Except.toOption])
    · rw [hchecker, htrace] at heq
      rw [← Option.some.inj heq.2]
  exact ⟨(checker_trace_eq_iff new_eq_reducer new_eq_checker tracked_names
    (steps_parsed ⟨carolId, carol_id⟩ ⟨bobId, bob_id⟩)).1 hsame, hsame⟩

end TwoNames

end Checker

end CoppiceNames
