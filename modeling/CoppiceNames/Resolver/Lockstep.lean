import CoppiceNames.Reducer.Pending
import CoppiceNames.Resolver.Exact
import CoppiceNames.Resolver.Filtered

/-!
# The resolver in lockstep with the reducer

A full reducer and the exact resolver of a name are given the same calls: the same blocks with the
same evidence, the same rollbacks, the same finalizations, in any order and whether they succeed or
not. They give the same verdicts and stay in step (`exact_lockstep`).

What can put them out of step is evidence alone. The resolver drops the REVEALs of other names, so
evidence for such a REVEAL references nothing of the filtered block: the resolver refuses a block
that the full reducer accepts. The condition is that every piece of evidence that a REVEAL of the
block references is referenced by a REVEAL of the name.

The carried relation (`InStep`) is that both are the replay of the same surviving blocks, filtered
for the resolver, with journals for the same blocks.
-/

open Std hiding not_le not_lt

namespace CoppiceNames

section Lockstep

variable [Primitives]

/-! ### Calls and verdicts -/

/-- Every piece of evidence that the block references is referenced by a REVEAL of the name. -/
def Block.EvidenceFor (block : Block) (nameId : NameId) (evidence : List ReferencedCommit) : Prop :=
  ∀ piece ∈ evidence, piece.reference ∈ block.revealReferences →
    piece.reference ∈ (block.filtered nameId).revealReferences

/-- The evidence of the call concerns the name. -/
def Call.EvidenceFor (nameId : NameId) : Call → Prop
  | .applyBlock block evidence => block.EvidenceFor nameId evidence
  | _ => True

/-- Both calls returned `Ok`, or both the same error. -/
def Reply.SameVerdict : Reply → Reply → Prop
  | .applied a, .applied b => (a.map fun _ ↦ ()) = b.map fun _ ↦ ()
  | .rolledBack a, .rolledBack b => (a.map fun _ ↦ ()) = b.map fun _ ↦ ()
  | .finalized a, .finalized b => a = b
  | _, _ => False

/-- Perform calls on the resolver in order, keeping the replies. -/
def ExactResolver.run (resolver : ExactResolver) : List Call → Option (List Reply × ExactResolver)
  | [] => some ([], resolver)
  | c :: calls =>
    match resolver.call c with
    | none => none
    | some (reply, next) => (next.run calls).map fun result ↦ (reply :: result.1, result.2)

/-- `ExactResolver::pending_commit`. -/
def ExactResolver.pendingCommit (resolver : ExactResolver) (reference : CommitRef) :
    Option Commitment :=
  resolver.reducer.pendingCommit reference

/-! ### Evidence for filtered blocks -/

variable {parameters : Parameters} {commits supplied result : OrderedMap CommitRef Commitment}
  {block : Block} {nameId : NameId} {evidence : List ReferencedCommit}

/-- Evidence for the name is admitted alike. -/
theorem supply_filtered (h : block.EvidenceFor nameId evidence) :
    supply parameters commits (block.filtered nameId) supplied evidence =
      supply parameters commits block supplied evidence := by
  induction evidence generalizing supplied with
  | nil => rfl
  | cons piece rest ih =>
    have hreferenced : piece.reference ∈ (block.filtered nameId).revealReferences ↔
        piece.reference ∈ block.revealReferences :=
      ⟨mem_revealReferences, h piece List.mem_cons_self⟩
    have hrest : block.EvidenceFor nameId rest :=
      fun piece' hpiece' ↦ h piece' (List.mem_cons_of_mem piece hpiece')
    rw [supply, supply]
    simp only [hreferenced, ih hrest]
    rfl

/-- Other evidence that the full reducer admits is refused for the filtered block. -/
theorem supply_filtered_of_foreign (h : ¬ block.EvidenceFor nameId evidence)
    (hsupply : supply parameters commits block supplied evidence = .ok result) :
    supply parameters commits (block.filtered nameId) supplied evidence =
      .error .invalidReferencedCommit := by
  induction evidence generalizing supplied with
  | nil => exact absurd (fun piece hpiece ↦ absurd hpiece List.not_mem_nil) h
  | cons piece rest ih =>
    rw [supply] at hsupply ⊢
    split at hsupply
    · exact absurd hsupply (by simp)
    rename_i hrange
    split at hsupply
    · exact absurd hsupply (by simp)
    rename_i hconsistent
    by_cases hpiece : piece.reference ∈ (block.filtered nameId).revealReferences
    · have hrest : ¬ block.EvidenceFor nameId rest := by
        intro hall
        refine h fun piece' hmem hreferenced ↦ ?_
        rcases List.mem_cons.1 hmem with rfl | hmem
        · exact hpiece
        · exact hall piece' hmem hreferenced
      rw [not_or, not_not] at hrange
      rw [if_neg (by rw [not_or, not_not]; exact ⟨hpiece, hrange.2⟩), if_neg hconsistent]
      exact ih hrest hsupply
    · rw [if_pos (Or.inl hpiece)]

/-- Filtering does not change the other checks. -/
theorem admission_filtered (nextHeight : Option U32) (previousHash : Bytes32) :
    admission parameters nextHeight previousHash commits (block.filtered nameId) evidence =
      if some block.height ≠ nextHeight then .error .wrongHeight
      else if block.prevHash ≠ previousHash then .error .wrongPreviousHash
      else
        match checkTransactions none block.transactions with
        | .error e => .error e
        | .ok () => supply parameters commits (block.filtered nameId) ∅ evidence := by
  have hindices := checkTransactions_map (g := fun transaction ↦ transaction.filtered nameId)
    (fun _ ↦ ⟨rfl, rfl⟩) none block.transactions
  rw [admission, ← hindices]
  rfl

/-! ### In step -/

/-- The blocks as the resolver's reducer sees them. -/
def filteredBlocks (nameId : NameId) (blocks : List (Block × List ReferencedCommit)) :
    List (Block × List ReferencedCommit) :=
  blocks.map fun block ↦ (block.1.filtered nameId, block.2)

/-- What a journal is filed under. -/
def Undo.place (undo : Undo) : U32 × Bytes32 := (undo.height, undo.hash)

/-- A rollback, as far as the places of the journals decide it. -/
def rollbackPlaces (tipHeight : Option U32) (previousHash expectedHash : Bytes32)
    (places : List (U32 × Bytes32)) : Except RollbackError Unit × List (U32 × Bytes32) :=
  match places.getLast? with
  | none => (.error (if tipHeight.isSome then .beyondRetention else .noAppliedBlock), places)
  | some place =>
    if place.2 ≠ expectedHash ∨ previousHash ≠ expectedHash then (.error .wrongTipHash, places)
    else (.ok (), places.dropLast)

/-- A finalization, as far as the places of the journals decide it. -/
def finalizePlaces (tipHeight : Option U32) (height : U32) (places : List (U32 × Bytes32)) :
    Except FinalizationError Unit × List (U32 × Bytes32) :=
  if tipHeight.all fun tip ↦ height > tip then (.error .beyondTip, places)
  else (.ok (), places.dropWhile (·.1 ≤ height))

theorem rollbackTipDetailed_places (reducer : Reducer) (expectedHash : Bytes32) :
    ((reducer.rollbackTipDetailed expectedHash).1.map (fun _ ↦ ()),
      (reducer.rollbackTipDetailed expectedHash).2.history.map Undo.place) =
    rollbackPlaces reducer.tipHeight reducer.previousHash expectedHash
      (reducer.history.map Undo.place) := by
  rw [Reducer.rollbackTipDetailed, rollbackPlaces, List.getLast?_map]
  rcases reducer.history.getLast? with - | undo
  · rfl
  · rw [Option.map_some]
    dsimp only
    rw [show undo.place.2 = undo.hash from rfl]
    split
    · rfl
    · rw [← List.map_dropLast]
      rfl

theorem finalizeThrough_places (reducer : Reducer) (height : U32) :
    ((reducer.finalizeThrough height).1,
      (reducer.finalizeThrough height).2.history.map Undo.place) =
    finalizePlaces reducer.tipHeight height (reducer.history.map Undo.place) := by
  rw [Reducer.finalizeThrough, finalizePlaces]
  split
  · rfl
  · rw [List.dropWhile_map]
    rfl

/-- **In step**: the same surviving blocks, filtered for the second reducer, and journals for the
same of them. -/
structure InStep (start : Reducer) (nameId : NameId) (full exact : Reducer) : Prop where
  survives : ∃ blocks, Survives start blocks full ∧
    Survives start (filteredBlocks nameId blocks) exact
  journals : exact.history.map Undo.place = full.history.map Undo.place

variable {verifier : ProofVerifier} {parent : Bytes32} {start full exact : Reducer}

/-- What survives a call depends on its verdict only. -/
theorem survivorsAfter_filtered (blocks : List (Block × List ReferencedCommit)) (c : Call)
    {reply reply' : Reply} (h : reply.SameVerdict reply') :
    survivorsAfter (filteredBlocks nameId blocks) (c.filtered nameId, reply') =
      filteredBlocks nameId (survivorsAfter blocks (c, reply)) := by
  rcases c with ⟨block, evidence⟩ | expectedHash | height
  · rcases reply with (e | outcome) | result | result <;>
      rcases reply' with (e' | outcome') | result' | result' <;> try exact h.elim
    · rfl
    · exact absurd h (by simp [Reply.SameVerdict, Except.map])
    · exact absurd h (by simp [Reply.SameVerdict, Except.map])
    · rw [survivorsAfter, filteredBlocks, filteredBlocks, List.map_append]
      rfl
    · rfl
    · rfl
  · rcases reply with result | (e | delta) | result <;>
      rcases reply' with result' | (e' | delta') | result' <;> try exact h.elim
    · rfl
    · rfl
    · exact absurd h (by simp [Reply.SameVerdict, Except.map])
    · exact absurd h (by simp [Reply.SameVerdict, Except.map])
    · rw [survivorsAfter, filteredBlocks, filteredBlocks, List.map_dropLast]
      rfl
    · rfl
  · rcases reply with result | result | result <;>
      rcases reply' with result' | result' | result' <;> try exact h.elim
    all_goals rfl

namespace InStep

theorem new (nameId : NameId) (start : Reducer) : InStep start nameId start start where
  survives := ⟨[], ⟨start, rfl, rfl, List.suffix_refl _⟩, ⟨start, rfl, rfl, List.suffix_refl _⟩⟩
  journals := rfl

/-- Reducers in step are alike, whatever journals they retain. -/
theorem alike (h : InStep start nameId full exact)
    (hnew : Reducer.new parameters parent verifier = .ok start) : Alike nameId full exact := by
  obtain ⟨blocks, ⟨fresh, hreplay, hfull, -⟩, fresh', hreplay', hexact, -⟩ := h.survives
  have hstart : Alike nameId start start := .new hnew
  obtain ⟨fresh'', hsame, halike⟩ := hstart.replay hreplay'
  rw [hreplay, Option.some.injEq] at hsame
  subst hsame
  rw [hfull, hexact]
  exact ⟨halike.rules, halike.nextHeight, halike.tipHeight, halike.previousHash,
    halike.full_indexed, halike.exact_indexed, halike.head, halike.commits⟩

/-- The replies and the states of a call on both. -/
structure Stepped (nameId : NameId) (full exact : Reducer) (c : Call)
    (reply reply' : Reply) (full' exact' : Reducer) : Prop where
  full : full.call c = some (reply, full')
  exact : exact.call (c.filtered nameId) = some (reply', exact')
  verdict : reply.SameVerdict reply'
  journals : exact'.history.map Undo.place = full'.history.map Undo.place

/-- A block with evidence for the name. -/
theorem stepped_apply (h : InStep start nameId full exact)
    (hnew : Reducer.new parameters parent verifier = .ok start)
    (hevidence : block.EvidenceFor nameId evidence) :
    ∃ reply reply' full' exact', Stepped nameId full exact (.applyBlock block evidence)
      reply reply' full' exact' := by
  have halike := h.alike hnew
  have hadmission : admission exact.rules.parameters exact.nextHeight exact.previousHash
      exact.commits (block.filtered nameId) evidence =
        admission full.rules.parameters full.nextHeight full.previousHash full.commits block
          evidence := by
    rw [admission_filtered, supply_filtered hevidence, halike.rules, halike.nextHeight,
      halike.previousHash, ← halike.commits]
    rfl
  rcases hadmitted : admission full.rules.parameters full.nextHeight full.previousHash full.commits
    block evidence with e | supplied
  · rw [hadmitted] at hadmission
    refine ⟨.applied (.error e), .applied (.error e), full, exact, ?_, ?_, rfl, h.journals⟩
    · rw [Reducer.call, Reducer.applyBlockDetailed, hadmitted]
      rfl
    · rw [Call.filtered, Reducer.call, Reducer.applyBlockDetailed, hadmission]
      rfl
  · rw [hadmitted] at hadmission
    obtain ⟨outcome, o, -, hok, -⟩ := Reducer.applyBlockDetailed_of_admission (C := Set.univ)
      (H := Set.univ) halike.full_indexed hadmitted (fun _ _ ↦ trivial) (fun _ _ ↦ trivial)
      (fun _ _ ↦ trivial) fun _ _ ↦ ⟨fun _ _ ↦ trivial, fun _ _ _ _ ↦ trivial⟩
    obtain ⟨outcome', o', -, hok', -⟩ := Reducer.applyBlockDetailed_of_admission (C := Set.univ)
      (H := Set.univ) halike.exact_indexed hadmission (fun _ _ ↦ trivial) (fun _ _ ↦ trivial)
      (fun _ _ ↦ trivial) fun _ _ ↦ ⟨fun _ _ ↦ trivial, fun _ _ _ _ ↦ trivial⟩
    refine ⟨.applied (.ok outcome), .applied (.ok outcome'), full.closeBlock block o,
      exact.closeBlock (block.filtered nameId) o', ?_, ?_, rfl, ?_⟩
    · rw [Reducer.call, hok]
      rfl
    · rw [Call.filtered, Reducer.call, hok']
      rfl
    · rw [Reducer.closeBlock, Reducer.closeBlock, List.map_append, List.map_append, h.journals]
      rfl

/-- **A call on both**, with evidence for the name. -/
theorem stepped (h : InStep start nameId full exact)
    (hnew : Reducer.new parameters parent verifier = .ok start) {c : Call}
    (hevidence : c.EvidenceFor nameId) :
    ∃ reply reply' full' exact', Stepped nameId full exact c reply reply' full' exact' := by
  have halike := h.alike hnew
  rcases c with ⟨block, evidence⟩ | expectedHash | height
  · exact h.stepped_apply hnew hevidence
  · have hfull := rollbackTipDetailed_places full expectedHash
    have hexact := rollbackTipDetailed_places exact expectedHash
    rw [halike.tipHeight, halike.previousHash, h.journals, ← hfull, Prod.mk.injEq] at hexact
    exact ⟨_, _, _, _, rfl, rfl, hexact.1.symm, hexact.2⟩
  · have hfull := finalizeThrough_places full height
    have hexact := finalizeThrough_places exact height
    rw [halike.tipHeight, h.journals, ← hfull, Prod.mk.injEq] at hexact
    exact ⟨_, _, _, _, rfl, rfl, hexact.1.symm, hexact.2⟩

/-- **They stay in step.** -/
theorem step (h : InStep start nameId full exact)
    (hnew : Reducer.new parameters parent verifier = .ok start) {c : Call}
    {reply reply' : Reply} {full' exact' : Reducer}
    (hstep : Stepped nameId full exact c reply reply' full' exact') :
    InStep start nameId full' exact' := by
  have hempty : start.history = [] := by
    obtain ⟨valid, rfl⟩ := Reducer.new_eq_ok_iff.1 hnew
    rfl
  obtain ⟨blocks, hfull, hexact⟩ := h.survives
  refine ⟨⟨survivorsAfter blocks (c, reply), ?_, ?_⟩, hstep.journals⟩
  · exact hfull.call (Reducer.indexed_new hnew) hempty hstep.full
  · rw [← survivorsAfter_filtered blocks c hstep.verdict]
    exact hexact.call (Reducer.indexed_new hnew) hempty hstep.exact

/-- The full reducer and the resolver resolve the name alike. -/
theorem resolveAuthenticated_eq (h : InStep start nameId full exact)
    (hnew : Reducer.new parameters parent verifier = .ok start) {name : Name}
    (hname : name.id = .ok nameId) (height : U32) :
    exact.resolveAuthenticated name height = full.resolveAuthenticated name height := by
  have halike := h.alike hnew
  have hresolve : exact.resolve name height = full.resolve name height := by
    rw [Reducer.resolve, Reducer.resolve, hname]
    dsimp only
    rw [halike.head, halike.rules]
  rw [Reducer.resolveAuthenticated, Reducer.resolveAuthenticated, halike.tipHeight, halike.rules,
    hresolve]

theorem rollbackRange_eq (h : InStep start nameId full exact) :
    rollbackRange exact.history = rollbackRange full.history := by
  have hrange : ∀ history : List Undo, rollbackRange history =
      (history.map Undo.place).head?.bind fun first ↦
        (history.map Undo.place).getLast?.map fun last ↦ ⟨first.1, last.1⟩ := by
    intro history
    rw [rollbackRange, List.head?_map, List.getLast?_map]
    rcases history.head? with - | first <;> rcases history.getLast? with - | last <;> rfl
  rw [hrange, hrange, h.journals]

/-- **Evidence for other names puts them out of step**: the resolver refuses the block. -/
theorem refused_of_foreign (h : InStep start nameId full exact)
    (hnew : Reducer.new parameters parent verifier = .ok start) {outcome : BlockOutcome}
    {next : Reducer} (happly : full.applyBlockDetailed block evidence = some (.ok outcome, next))
    (hforeign : ¬ block.EvidenceFor nameId evidence) :
    exact.applyBlockDetailed (block.filtered nameId) evidence =
      some (.error .invalidReferencedCommit, exact) := by
  have halike := h.alike hnew
  obtain ⟨supplied, -, -, -, -, -, hadmission, -⟩ := Reducer.applyBlockDetailed_eq_ok_iff.1 happly
  obtain ⟨hheight, hhash, hcheck, hsupply⟩ := admission_eq_ok hadmission
  have hrefused : admission exact.rules.parameters exact.nextHeight exact.previousHash
      exact.commits (block.filtered nameId) evidence = .error .invalidReferencedCommit := by
    rw [admission_filtered, halike.rules, halike.nextHeight, halike.previousHash,
      ← halike.commits, if_neg (not_not.2 hheight), if_neg (not_not.2 hhash), hcheck]
    exact supply_filtered_of_foreign hforeign hsupply
  rw [Reducer.applyBlockDetailed, hrefused]

/-- **Every run.** -/
theorem run {resolver : ExactResolver} (h : InStep start resolver.nameId full resolver.reducer)
    (hnew : Reducer.new parameters parent verifier = .ok start) {calls : List Call}
    (hevidence : ∀ c ∈ calls, c.EvidenceFor resolver.nameId) :
    ∃ replies full' replies' exact', full.run calls = some (replies, full') ∧
      resolver.run calls = some (replies', { resolver with reducer := exact' }) ∧
      List.Forall₂ Reply.SameVerdict replies replies' ∧
      InStep start resolver.nameId full' exact' := by
  induction calls generalizing full resolver with
  | nil => exact ⟨[], full, [], resolver.reducer, rfl, rfl, .nil, h⟩
  | cons c calls ih =>
    obtain ⟨reply, reply', full₁, exact₁, hstep⟩ := h.stepped hnew
      (hevidence c List.mem_cons_self)
    have hnext : InStep start resolver.nameId full₁ exact₁ := h.step hnew hstep
    have hcall : resolver.call c = some (reply', { resolver with reducer := exact₁ }) :=
      ExactResolver.call_eq_some_iff.2 ⟨rfl, hstep.exact⟩
    have hmiddle : InStep start ({ resolver with reducer := exact₁ } : ExactResolver).nameId full₁
      ({ resolver with reducer := exact₁ } : ExactResolver).reducer := hnext
    obtain ⟨replies, full', replies', exact', hfull, hexact, hverdicts, hlast⟩ := ih hmiddle
      fun c' hc' ↦ hevidence c' (List.mem_cons_of_mem c hc')
    refine ⟨reply :: replies, full', reply' :: replies', exact', ?_, ?_,
      .cons hstep.verdict hverdicts, hlast⟩
    · exact Reducer.run_cons_eq_some_iff.2 ⟨reply, full₁, replies, hstep.full, hfull, rfl⟩
    · rw [ExactResolver.run, hcall]
      dsimp only
      rw [hexact]
      rfl

end InStep

/-- **The exact resolver in lockstep with the full reducer.** From new, under any calls whose
evidence concerns the name, failing ones, rollbacks and finalizations included, both give the same
verdicts and end at the same tip, with the same pending COMMITs, the same rollback range and the
same resolution of the name at every height. From there the condition is exact: with other evidence
the resolver refuses any block that the full reducer accepts. -/
theorem exact_lockstep {name : Name} {resolver : ExactResolver}
    (hnew : Reducer.new parameters parent verifier = .ok start)
    (hresolver : ExactResolver.new parameters parent name verifier = .ok resolver)
    {calls : List Call} (hevidence : ∀ c ∈ calls, c.EvidenceFor resolver.nameId) :
    ∃ replies full replies' exact, start.run calls = some (replies, full) ∧
      resolver.run calls = some (replies', exact) ∧
      List.Forall₂ Reply.SameVerdict replies replies' ∧ exact.tip = full.tip ∧
      (∀ height, exact.resolve height = full.resolveAuthenticated name height) ∧
      (∀ reference, exact.pendingCommit reference = full.pendingCommit reference) ∧
      rollbackRange exact.reducer.history = rollbackRange full.history ∧
      ∀ block evidence outcome next,
        full.applyBlockDetailed block evidence = some (.ok outcome, next) →
        ¬ block.EvidenceFor resolver.nameId evidence →
        exact.applyBlockDetailed block evidence =
          some (.error .invalidReferencedCommit, exact) := by
  obtain ⟨rfl, hreducer⟩ := ExactResolver.new_eq_ok_iff.1 hresolver
  have hsame : resolver.reducer = start := Except.ok.inj (hreducer.symm.trans hnew)
  have hstart : InStep start resolver.nameId start resolver.reducer := by
    rw [hsame]
    exact .new resolver.nameId start
  obtain ⟨replies, full, replies', exact, hfull, hexact, hverdicts, h⟩ := hstart.run hnew hevidence
  have halike := h.alike hnew
  refine ⟨replies, full, replies', _, hfull, hexact, hverdicts, ?_,
    h.resolveAuthenticated_eq hnew resolver.id_eq, fun reference ↦ ?_, h.rollbackRange_eq,
    fun block evidence outcome next happly hforeign ↦ ?_⟩
  · rw [ExactResolver.tip, Reducer.tip, Reducer.tip]
    dsimp only
    rw [halike.tipHeight, halike.previousHash]
  · rw [ExactResolver.pendingCommit, Reducer.pendingCommit, Reducer.pendingCommit, halike.commits]
  · rw [ExactResolver.applyBlockDetailed, h.refused_of_foreign hnew happly hforeign]
    rfl

end Lockstep

namespace Sample

/-- The small chain with the COMMIT handed over as evidence, a rollback and a finalization. -/
def lockstepCalls : List Call :=
  [.applyBlock block0 [], .applyBlock block1 [commitPiece], .applyBlock block1 [],
    .rollbackTip block1.hash, .finalizeThrough 0, .rollbackTip block0.hash]

/-- The block of the REVEAL of `alice` is its own filtered block. -/
theorem block1_filtered {nameId : NameId} (hid : alice.id = .ok nameId) :
    block1.filtered nameId = block1 := by
  simp [Block.filtered, block1, Transaction.filtered, revealTransaction, Operation.relevant, hid]

theorem exact_lockstep_alice : ∃ resolver,
    ExactResolver.new parameters parent alice verifier = .ok resolver ∧
    ∃ replies full replies' exact, start.run lockstepCalls = some (replies, full) ∧
      resolver.run lockstepCalls = some (replies', exact) ∧
      List.Forall₂ Reply.SameVerdict replies replies' ∧ exact.tip = full.tip ∧
      ∀ height, exact.resolve height = full.resolveAuthenticated alice height := by
  obtain ⟨resolver, hresolver⟩ := exists_resolver
  have hname := (ExactResolver.new_eq_ok_iff.1 hresolver).1
  have hid : alice.id = .ok resolver.nameId := hname ▸ resolver.id_eq
  have hevidence : ∀ c ∈ lockstepCalls, c.EvidenceFor resolver.nameId := by
    intro c hc
    simp only [lockstepCalls, List.mem_cons, List.not_mem_nil, or_false] at hc
    rcases hc with rfl | rfl | rfl | rfl | rfl | rfl
    · exact fun piece hpiece ↦ absurd hpiece List.not_mem_nil
    · intro piece _ hreferenced
      rw [block1_filtered hid]
      exact hreferenced
    · exact fun piece hpiece ↦ absurd hpiece List.not_mem_nil
    · trivial
    · trivial
    · trivial
  obtain ⟨replies, full, replies', exact, hfull, hexact, hverdicts, htip, hresolve, -⟩ :=
    exact_lockstep new_eq_start hresolver hevidence
  exact ⟨resolver, hresolver, replies, full, replies', exact, hfull, hexact, hverdicts, htip,
    hresolve⟩

end Sample

end CoppiceNames
