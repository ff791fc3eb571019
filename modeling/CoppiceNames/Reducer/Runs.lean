import CoppiceNames.Reducer.Refinement
import CoppiceNames.Reducer.Snapshot

/-!
# Runs of a reducer

The public calls that change a reducer, in any order: applying a block with evidence, rolling back
the tip, finalizing. A run keeps every reply, those of failing calls included; `none` is a panic.
`Reached` are the states such runs visit from `Reducer::new` or from any snapshot that loads.

The first result needs nothing about how a state was reached but this: the derived indexes of every
reached state are the rebuilt ones (`Reached.indexed`), and so no call panics (`call_isSome`).
-/

open Std

namespace CoppiceNames

section Runs

variable [Primitives]

/-- A call that may change a reducer. -/
inductive Call
  | applyBlock (block : Block) (evidence : List ReferencedCommit)
  | rollbackTip (expectedHash : Bytes32)
  | finalizeThrough (height : U32)

/-- What a call returns. -/
inductive Reply
  | applied (result : Except ApplyError BlockOutcome)
  | rolledBack (result : Except RollbackError StateDelta)
  | finalized (result : Except FinalizationError Unit)

/-- The call returned `Ok`. -/
def Reply.isOk : Reply → Bool
  | applied result => result.toBool
  | rolledBack result => result.toBool
  | finalized result => result.toBool

namespace Reducer

/-- Perform a call. -/
def call (reducer : Reducer) : Call → Option (Reply × Reducer)
  | .applyBlock block evidence =>
    (reducer.applyBlockDetailed block evidence).map fun result ↦ (.applied result.1, result.2)
  | .rollbackTip expectedHash =>
    let result := reducer.rollbackTipDetailed expectedHash
    some (.rolledBack result.1, result.2)
  | .finalizeThrough height =>
    let result := reducer.finalizeThrough height
    some (.finalized result.1, result.2)

/-- Perform calls in order, keeping the replies. -/
def run (reducer : Reducer) : List Call → Option (List Reply × Reducer)
  | [] => some ([], reducer)
  | c :: calls =>
    match reducer.call c with
    | none => none
    | some (reply, next) => (next.run calls).map fun result ↦ (reply :: result.1, result.2)

/-- Apply one block, which has to be accepted. -/
def accept (reducer : Reducer) (block : Block × List ReferencedCommit) : Option Reducer :=
  match reducer.applyBlockDetailed block.1 block.2 with
  | some (.ok _, next) => some next
  | _ => none

/-- Apply blocks in order, all of which have to be accepted. -/
def replay (reducer : Reducer) (blocks : List (Block × List ReferencedCommit)) : Option Reducer :=
  blocks.foldlM accept reducer

end Reducer

/-- The states that calls reach from a new reducer or a loaded snapshot. -/
inductive Reached : Reducer → Prop
  | new {parameters : Parameters} {parent : Bytes32} {verifier : ProofVerifier}
      {reducer : Reducer} (h : Reducer.new parameters parent verifier = .ok reducer) :
      Reached reducer
  | load {B : Type} {serde : Serde B StoredReducer} {parameters : Parameters} {network : Network}
      {verifier : ProofVerifier} {bytes : B} {reducer : Reducer}
      (h : Reducer.loadSnapshot serde parameters network verifier bytes = .ok reducer) :
      Reached reducer
  | call {reducer next : Reducer} {c : Call} {reply : Reply} (hreached : Reached reducer)
      (h : reducer.call c = some (reply, next)) : Reached next

/-! ### The indexes of every reached state -/

namespace Reducer

variable {reducer : Reducer}

/-- An accepted block, in parts. -/
theorem applyBlockDetailed_eq_ok_iff {block : Block} {evidence : List ReferencedCommit}
    {outcome : BlockOutcome} {next : Reducer} :
    reducer.applyBlockDetailed block evidence = some (.ok outcome, next) ↔
      ∃ supplied compacted started decisions terminated o,
        admission reducer.rules.parameters reducer.nextHeight reducer.previousHash reducer.commits
          block evidence = .ok supplied ∧
        reducer.startBlock block.height supplied = some (compacted, started) ∧
        started.applyTransactions reducer.rules block.height block.transactions =
          some (decisions, terminated, o) ∧
        next = reducer.closeBlock block o ∧
        outcome = ⟨decisions.filterMap OperationDecision.accepted, decisions, compacted, terminated,
          next.deltaFromUndo reducer.tip next.tip o.journal⟩ := by
  rw [applyBlockDetailed]
  constructor
  · intro h
    rcases hadmission : admission reducer.rules.parameters reducer.nextHeight reducer.previousHash
        reducer.commits block evidence with e | supplied
    · rw [hadmission] at h
      cases h
    rw [hadmission] at h
    simp only [Option.bind_eq_bind, Option.bind_eq_some_iff, Option.pure_def, Prod.exists] at h
    obtain ⟨compacted, started, hstart, decisions, terminated, o, hrun, h⟩ := h
    cases h
    exact ⟨supplied, compacted, started, decisions, terminated, o, rfl, hstart, hrun, rfl, rfl⟩
  · rintro ⟨supplied, compacted, started, decisions, terminated, o, hadmission, hstart, hrun, rfl,
      rfl⟩
    rw [hadmission]
    simp only [hstart, hrun, Option.bind_eq_bind, Option.bind_some, Option.pure_def]

/-- What applying a block does, with no bound on what it touches. -/
theorem applyBlockDetailed_spec (hindexed : reducer.toRecords.Indexed) (block : Block)
    (evidence : List ReferencedCommit) :
    (∃ e, admission reducer.rules.parameters reducer.nextHeight reducer.previousHash
        reducer.commits block evidence = .error e ∧
      reducer.applyBlockDetailed block evidence = some (.error e, reducer) ∧
      reducer.scan.applyBlock block evidence = .error e) ∨
    ∃ outcome o s, reducer.applyBlockDetailed block evidence =
        some (.ok outcome, reducer.closeBlock block o) ∧
      Tracks reducer.ledger Set.univ Set.univ o ∧
      reducer.scan.applyBlock block evidence = .ok (s, (reducer.closeBlock block o).scan) ∧
      outcome.accepted = s.accepted ∧ outcome.decisions = s.decisions ∧
      outcome.terminated = s.terminated ∧
      (Tracks.OneTerminal (reducer.ledger.markExpired block.height).heads reducer.rules.parameters
        block.height → outcome.compacted = s.compacted) ∧
      outcome.stateDelta = (reducer.closeBlock block o).deltaFromUndo reducer.tip
        (reducer.closeBlock block o).tip o.journal := by
  rcases hadmission : admission reducer.rules.parameters reducer.nextHeight reducer.previousHash
      reducer.commits block evidence with e | supplied
  · refine Or.inl ⟨e, rfl, by rw [applyBlockDetailed, hadmission], ?_⟩
    have hadmission' : admission reducer.scan.rules.parameters reducer.scan.nextHeight
        reducer.scan.previousHash reducer.scan.ledger.commits block evidence = .error e :=
      hadmission
    rw [ScanReducer.applyBlock, hadmission']
  · exact Or.inr (applyBlockDetailed_of_admission hindexed hadmission (fun _ _ ↦ trivial)
      (fun _ _ ↦ trivial) (fun _ _ ↦ trivial)
      fun _ _ ↦ ⟨fun _ _ ↦ trivial, fun _ _ _ _ ↦ trivial⟩)

theorem indexed_revert {records : Records} (h : records.Indexed) (journal : Journal) :
    (revert records journal).Indexed := by
  rw [revert]
  have hcommits : ∀ (entries : List (CommitRef × Option Commitment)) {records : Records},
      records.Indexed →
        (entries.foldl (fun records e ↦ records.replaceCommit e.1 e.2) records).Indexed := by
    intro entries
    induction entries with
    | nil => exact fun h ↦ h
    | cons e entries ih => exact fun h ↦ ih (h.replaceCommit e.1 e.2)
  have hheads : ∀ (entries : List (NameId × Option Head)) {records : Records},
      records.Indexed →
        (entries.foldl (fun records e ↦ records.replaceHead e.1 e.2) records).Indexed := by
    intro entries
    induction entries with
    | nil => exact fun h ↦ h
    | cons e entries ih => exact fun h ↦ ih (h.replaceHead e.1 e.2)
  exact hheads _ (hcommits _ h)

/-- A call keeps the indexes. -/
theorem indexed_call (h : reducer.toRecords.Indexed) {c : Call} {reply : Reply} {next : Reducer}
    (hcall : reducer.call c = some (reply, next)) : next.toRecords.Indexed := by
  cases c with
  | applyBlock block evidence =>
    rw [call, Option.map_eq_some_iff] at hcall
    obtain ⟨result, happly, heq⟩ := hcall
    cases heq
    rcases applyBlockDetailed_spec h block evidence with
      ⟨e, -, hfailed, -⟩ | ⟨outcome, o, s, hok, htracks, -⟩
    · rw [hfailed] at happly
      cases happly
      exact h
    · rw [hok] at happly
      cases happly
      exact htracks.indexed
  | rollbackTip expectedHash =>
    rw [call, Option.some.injEq, Prod.mk.injEq] at hcall
    rw [← hcall.2, rollbackTipDetailed]
    split
    · exact h
    · split
      · exact h
      · exact indexed_revert h _
  | finalizeThrough height =>
    rw [call, Option.some.injEq, Prod.mk.injEq] at hcall
    rw [← hcall.2, finalizeThrough]
    split <;> exact h

/-- On indexed records no call panics. -/
theorem call_isSome (h : reducer.toRecords.Indexed) (c : Call) : (reducer.call c).isSome := by
  cases c with
  | applyBlock block evidence =>
    rw [call, Option.isSome_map]
    rcases applyBlockDetailed_spec h block evidence with
      ⟨e, -, hfailed, -⟩ | ⟨outcome, o, s, hok, -⟩
    · rw [hfailed]
      rfl
    · rw [hok]
      rfl
  | rollbackTip expectedHash => rfl
  | finalizeThrough height => rfl

theorem indexed_new {parameters : Parameters} {parent : Bytes32} {verifier : ProofVerifier}
    (h : Reducer.new parameters parent verifier = .ok reducer) : reducer.toRecords.Indexed := by
  obtain ⟨valid, rfl⟩ := new_eq_ok_iff.1 h
  exact Records.indexed_empty

/-- A snapshot that loads has rebuilt indexes. -/
theorem indexed_loadSnapshot {B : Type} {serde : Serde B StoredReducer} {parameters : Parameters}
    {network : Network} {verifier : ProofVerifier} {bytes : B}
    (h : loadSnapshot serde parameters network verifier bytes = .ok reducer) :
    reducer.toRecords.Indexed := by
  obtain ⟨valid, stored, -, hrestore⟩ := loadSnapshot_eq_ok h
  obtain ⟨-, -, -, -, -, commits, heads, history, -, -, -, -, -, rfl⟩ :=
    restore_eq_ok_iff.1 hrestore
  exact Records.indexed_rebuild _

end Reducer

/-- The first call of a run. -/
theorem Reducer.run_cons_eq_some_iff {reducer next : Reducer} {c : Call} {calls : List Call}
    {replies : List Reply} :
    reducer.run (c :: calls) = some (replies, next) ↔
      ∃ reply middle rest, reducer.call c = some (reply, middle) ∧
        middle.run calls = some (rest, next) ∧ replies = reply :: rest := by
  rw [run]
  rcases reducer.call c with - | ⟨reply, middle⟩
  · simp
  · constructor
    · intro h
      obtain ⟨⟨rest, last⟩, hrest, heq⟩ := Option.map_eq_some_iff.1 h
      obtain ⟨rfl, rfl⟩ := Prod.mk.inj heq
      exact ⟨reply, middle, rest, rfl, hrest, rfl⟩
    · intro h
      obtain ⟨reply', middle', rest, hcall, hrest, rfl⟩ := h
      cases hcall
      exact Option.map_eq_some_iff.2 ⟨(rest, next), hrest, rfl⟩

/-- The states of a run are reached. -/
theorem Reached.run {reducer next : Reducer} (h : Reached reducer) {calls : List Call}
    {replies : List Reply} (hrun : reducer.run calls = some (replies, next)) : Reached next := by
  induction calls generalizing reducer replies with
  | nil =>
    rw [Reducer.run, Option.some.injEq, Prod.mk.injEq] at hrun
    rwa [← hrun.2]
  | cons c calls ih =>
    obtain ⟨reply, middle, rest, hcall, hrest, -⟩ := Reducer.run_cons_eq_some_iff.1 hrun
    exact ih (h.call hcall) hrest

/-- **Every reached state is indexed.** -/
theorem Reached.indexed {reducer : Reducer} (h : Reached reducer) : reducer.toRecords.Indexed := by
  induction h with
  | new h => exact Reducer.indexed_new h
  | load h => exact Reducer.indexed_loadSnapshot h
  | call _ h ih => exact Reducer.indexed_call ih h

end Runs

/-! ### A small chain

The label `alice` in the small deployment: a COMMIT at height zero, its REVEAL at height one, and a
spend of the head's future nullifier at height two. -/

namespace Sample

/-- A verifier that accepts the one-byte proof `1`. -/
def verifier : ProofVerifier where
  verifyReveal _ proof := proof == [1]
  verifyRefresh _ proof := proof == [1]

/-- The activation parent. -/
def parent : Bytes32 := Vector.replicate 32 0

/-- A new reducer of the small deployment. -/
def start : Reducer :=
  { Records.empty with
    rules := ⟨parameters, verifier, parameters_valid⟩
    nextHeight := some 0
    tipHeight := none
    previousHash := parent
    history := [] }

theorem new_eq_start : Reducer.new parameters parent verifier = .ok start :=
  Reducer.new_eq_ok_iff.2 ⟨parameters_valid, rfl⟩

/-- A COMMIT. -/
def commitTransaction : Transaction :=
  ⟨0, Vector.replicate 32 10, [⟨0, field 3, field 4⟩], some (.commit commitment)⟩

/-- The REVEAL of `alice` under that COMMIT. -/
def revealTransaction : Transaction :=
  ⟨0, Vector.replicate 32 11, [⟨0, field 5, field 6⟩], some (.reveal
    { name := alice
      commit := ⟨0, 0, Vector.replicate 32 10⟩
      ua := ua
      actionIndex := 0
      successorFutureNf := field 7
      proof := [1] })⟩

/-- A transaction without an operation that spends the head of `alice`. -/
def spendTransaction : Transaction :=
  ⟨0, Vector.replicate 32 12, [⟨0, field 7, field 8⟩], none⟩

def block0 : Block := ⟨0, Vector.replicate 32 1, parent, [commitTransaction]⟩

def block1 : Block := ⟨1, Vector.replicate 32 2, block0.hash, [revealTransaction]⟩

def block2 : Block := ⟨2, Vector.replicate 32 3, block1.hash, [spendTransaction]⟩

end Sample

end CoppiceNames
