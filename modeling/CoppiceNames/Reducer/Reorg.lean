import CoppiceNames.Reducer.Runs

/-!
# Reorganisations

Rolling back the tip undoes a block exactly: the block's journal leads back to the records before it
(`Tracks`), and indexed records are determined by their authoritative part, so the indexes come back
with them (`rollbackTipDetailed_of_close`).

Over a whole run the reducer is therefore the replay of the blocks that survived, and only its
journals may be shorter (`Survives`). The step lemma treats one call; the run lemma is an induction
over the calls.
-/

open Std

namespace CoppiceNames

section Reorg

variable [Primitives]

/-- Indexed records are determined by their authoritative part. -/
theorem Records.Indexed.eq_of_ledger_eq {records records' : Records} (h : records.Indexed)
    (h' : records'.Indexed) (hledger : records.ledger = records'.ledger) : records = records' := by
  have hcommits : records.commits = records'.commits := congrArg Ledger.commits hledger
  have hheads : records.heads = records'.heads := congrArg Ledger.heads hledger
  have h₁ := h.commitsByHeight
  have h₂ := h.headsByFutureNf
  have h₃ := h.activeHeadsByExpiry
  have h₄ := h.terminalHeadsByHeight
  rw [hcommits] at h₁
  rw [hheads] at h₂ h₃ h₄
  exact Records.ext hcommits hheads (h₁.unique h'.commitsByHeight) (h₂.unique h'.headsByFutureNf)
    (h₃.unique h'.activeHeadsByExpiry) (h₄.unique h'.terminalHeadsByHeight)

namespace Reducer

/-- Reverting writes the journaled values back. -/
theorem revert_ledger (records : Records) (journal : Journal) :
    (revert records journal).ledger =
      ⟨OrderedMap.putAll records.commits journal.commits.toList,
        OrderedMap.putAll records.heads journal.heads.toList⟩ := by
  have hcommits : ∀ (entries : List (CommitRef × Option Commitment)) (records : Records),
      (entries.foldl (fun records e ↦ records.replaceCommit e.1 e.2) records).ledger =
        ⟨OrderedMap.putAll records.commits entries, records.heads⟩ := by
    intro entries
    induction entries with
    | nil => exact fun _ ↦ rfl
    | cons e entries ih =>
      intro records
      rw [List.foldl_cons, ih, Records.replaceCommit_commits, Records.replaceCommit_heads]
      rfl
  have hheads : ∀ (entries : List (NameId × Option Head)) (records : Records),
      (entries.foldl (fun records e ↦ records.replaceHead e.1 e.2) records).ledger =
        ⟨records.commits, OrderedMap.putAll records.heads entries⟩ := by
    intro entries
    induction entries with
    | nil => exact fun _ ↦ rfl
    | cons e entries ih =>
      intro records
      rw [List.foldl_cons, ih, Records.replaceHead_commits, Records.replaceHead_heads]
      rfl
  have hfirst := hcommits journal.commits.toList records
  rw [revert, hheads]
  exact congrArg₂ Ledger.mk (congrArg Ledger.commits hfirst)
    (congrArg (OrderedMap.putAll · journal.heads.toList) (congrArg Ledger.heads hfirst))

variable {reducer : Reducer}

/-- **The journal of a block reverts it.** -/
theorem revert_of_tracks (hindexed : reducer.toRecords.Indexed) {C : Set CommitRef}
    {H : Set NameId} {o : OpenBlock} (h : Tracks reducer.ledger C H o) :
    revert o.records o.journal = reducer.toRecords := by
  refine (indexed_revert h.indexed _).eq_of_ledger_eq hindexed ?_
  rw [revert_ledger, h.commits.restore, h.heads.restore]

/-- Rolling back the block on top, whatever older journals are retained. -/
theorem rollbackTipDetailed_of_close (hindexed : reducer.toRecords.Indexed) {C : Set CommitRef}
    {H : Set NameId} {block : Block} {o : OpenBlock} (h : Tracks reducer.ledger C H o)
    (retained : List Undo) :
    ∃ delta, ({ reducer with history := retained }.closeBlock block o).rollbackTipDetailed
      block.hash = (.ok delta, { reducer with history := retained }) := by
  have hrevert := revert_of_tracks hindexed h
  have hlast : (({ reducer with history := retained } : Reducer).closeBlock
    block o).history.getLast?
      = some { reducer.newUndo block.height block.hash with toJournal := o.journal } := by
    rw [closeBlock]
    exact List.getLast?_concat
  have hdrop : (({ reducer with history := retained } : Reducer).closeBlock
    block o).history.dropLast
      = retained := List.dropLast_concat
  rw [rollbackTipDetailed, hlast]
  dsimp only
  rw [if_neg (by simp [closeBlock, newUndo])]
  refine ⟨_, Prod.ext rfl ?_⟩
  dsimp only
  rw [hdrop]
  have hrecords : revert (({ reducer with history := retained } : Reducer).closeBlock block
      o).toRecords o.journal = reducer.toRecords := hrevert
  rw [hrecords]
  rfl

/-- A rollback that fails changes nothing; one that succeeds names the hash of the tip. -/
theorem rollbackTipDetailed_cases (reducer : Reducer) (expectedHash : Bytes32) :
    (∃ e, reducer.rollbackTipDetailed expectedHash = (.error e, reducer)) ∨
      ∃ delta next, reducer.rollbackTipDetailed expectedHash = (.ok delta, next) ∧
        reducer.history ≠ [] ∧ reducer.previousHash = expectedHash := by
  rw [rollbackTipDetailed]
  split
  · exact Or.inl ⟨_, rfl⟩
  · rename_i undo hlast
    split
    · exact Or.inl ⟨_, rfl⟩
    · rename_i hhash
      rw [not_or, not_not, not_not] at hhash
      refine Or.inr ⟨_, _, rfl, ?_, hhash.2⟩
      rintro hnil
      rw [hnil] at hlast
      cases hlast

/-- A finalization that fails changes nothing. -/
theorem finalizeThrough_cases (reducer : Reducer) (height : U32) :
    (∃ e, reducer.finalizeThrough height = (.error e, reducer)) ∨
      ∃ history, history <:+ reducer.history ∧
        reducer.finalizeThrough height = (.ok (), { reducer with history := history }) := by
  rw [finalizeThrough]
  split
  · exact Or.inl ⟨_, rfl⟩
  · exact Or.inr ⟨_, List.dropWhile_suffix _, rfl⟩

/-! ### Surviving blocks -/

/-- The accepted block, in parts. -/
theorem accept_eq_some_iff {block : Block} {evidence : List ReferencedCommit} {next : Reducer} :
    reducer.accept (block, evidence) = some next ↔
      ∃ outcome, reducer.applyBlockDetailed block evidence = some (.ok outcome, next) := by
  rw [accept]
  rcases reducer.applyBlockDetailed block evidence with - | ⟨e | outcome, next'⟩ <;> simp

/-- Applying a block does not read the retained journals. -/
theorem applyBlockDetailed_withHistory (hindexed : reducer.toRecords.Indexed)
    (retained : List Undo) (block : Block) (evidence : List ReferencedCommit) :
    (∃ e, reducer.applyBlockDetailed block evidence = some (.error e, reducer) ∧
      ({ reducer with history := retained } : Reducer).applyBlockDetailed block evidence =
        some (.error e, { reducer with history := retained })) ∨
    ∃ outcome o, reducer.applyBlockDetailed block evidence =
        some (.ok outcome, reducer.closeBlock block o) ∧
      ({ reducer with history := retained } : Reducer).applyBlockDetailed block evidence =
        some (.ok outcome, ({ reducer with history := retained } : Reducer).closeBlock block o) ∧
      Tracks reducer.ledger Set.univ Set.univ o := by
  rcases applyBlockDetailed_spec hindexed block evidence with
    ⟨e, hadmission, hfailed, -⟩ | ⟨outcome, o, s, hok, htracks, -⟩
  · refine Or.inl ⟨e, hfailed, ?_⟩
    rw [applyBlockDetailed]
    have hadmission' : admission ({ reducer with history := retained } : Reducer).rules.parameters
        ({ reducer with history := retained } : Reducer).nextHeight
        ({ reducer with history := retained } : Reducer).previousHash
        ({ reducer with history := retained } : Reducer).commits block evidence = .error e :=
      hadmission
    rw [hadmission']
  · refine Or.inr ⟨outcome, o, hok, ?_, htracks⟩
    obtain ⟨supplied, compacted, started, decisions, terminated, o', hadmission, hstart, hrun,
      hnext, houtcome⟩ := applyBlockDetailed_eq_ok_iff.1 hok
    have hrecords : o.records = o'.records := congrArg Reducer.toRecords hnext
    have hjournal : o.journal = o'.journal := by
      have hhistory := congrArg Reducer.history hnext
      rw [closeBlock, closeBlock] at hhistory
      exact congrArg Undo.toJournal (List.cons.inj (List.append_cancel_left hhistory)).1
    have ho : o = o' := by
      rcases o with ⟨_, _⟩
      rcases o' with ⟨_, _⟩
      cases hrecords
      cases hjournal
      rfl
    subst ho
    exact applyBlockDetailed_eq_ok_iff.2 ⟨supplied, compacted, started, decisions, terminated, o,
      hadmission, hstart, hrun, rfl, houtcome⟩

end Reducer

/-- The surviving blocks after one more call. -/
def survivorsAfter (blocks : List (Block × List ReferencedCommit)) :
    Call × Reply → List (Block × List ReferencedCommit)
  | (.applyBlock block evidence, .applied (.ok _)) => blocks ++ [(block, evidence)]
  | (.rollbackTip _, .rolledBack (.ok _)) => blocks.dropLast
  | _ => blocks

/-- The blocks that were applied and not since rolled back, with their evidence. -/
def survivors (calls : List Call) (replies : List Reply) : List (Block × List ReferencedCommit) :=
  (calls.zip replies).foldl survivorsAfter []

/-- The reducer is the replay of the blocks, apart from journals it no longer retains. -/
def Survives (start : Reducer) (blocks : List (Block × List ReferencedCommit)) (reducer : Reducer) :
    Prop :=
  ∃ fresh, start.replay blocks = some fresh ∧
    reducer = { fresh with history := reducer.history } ∧ reducer.history <:+ fresh.history

theorem Reducer.replay_append (start : Reducer) (blocks : List (Block × List ReferencedCommit))
    (block : Block × List ReferencedCommit) : start.replay (blocks ++ [block]) =
      (start.replay blocks).bind fun reducer ↦ reducer.accept block := by
  rw [replay, replay, List.foldlM_append]
  simp only [List.foldlM_cons, List.foldlM_nil, bind_pure, Option.bind_eq_bind]

theorem Reducer.replay_append_list (start : Reducer)
    (blocks later : List (Block × List ReferencedCommit)) : start.replay (blocks ++ later) =
      (start.replay blocks).bind fun reducer ↦ reducer.replay later := by
  rw [replay, List.foldlM_append]
  rfl

theorem Reducer.replay_cons_eq_some_iff {reducer final : Reducer}
    {block : Block × List ReferencedCommit} {blocks : List (Block × List ReferencedCommit)} :
    reducer.replay (block :: blocks) = some final ↔
      ∃ next, reducer.accept block = some next ∧ next.replay blocks = some final := by
  rw [replay, List.foldlM_cons, Option.bind_eq_bind, Option.bind_eq_some_iff]
  rfl

theorem Reducer.indexed_replay {start fresh : Reducer}
    {blocks : List (Block × List ReferencedCommit)} (h : start.toRecords.Indexed)
    (hreplay : start.replay blocks = some fresh) : fresh.toRecords.Indexed := by
  induction blocks using List.reverseRecOn generalizing fresh with
  | nil =>
    cases hreplay
    exact h
  | append_singleton blocks block ih =>
    rw [replay_append, Option.bind_eq_some_iff] at hreplay
    obtain ⟨previous, hprevious, haccept⟩ := hreplay
    obtain ⟨outcome, happly⟩ := accept_eq_some_iff.1 haccept
    have hcall : previous.call (.applyBlock block.1 block.2) =
      some (.applied (.ok outcome), fresh) := by
      rw [Reducer.call, happly]
      rfl
    exact indexed_call (ih hprevious) hcall

theorem Reducer.rules_replay {start fresh : Reducer} {blocks : List (Block × List ReferencedCommit)}
    (h : start.replay blocks = some fresh) : fresh.rules = start.rules := by
  induction blocks using List.reverseRecOn generalizing fresh with
  | nil => rw [← Option.some.inj h]
  | append_singleton blocks block ih =>
    rw [replay_append, Option.bind_eq_some_iff] at h
    obtain ⟨previous, hprevious, haccept⟩ := h
    obtain ⟨outcome, happly⟩ := accept_eq_some_iff.1 haccept
    obtain ⟨-, -, -, -, -, o, -, -, -, rfl, -⟩ := applyBlockDetailed_eq_ok_iff.1 happly
    have hprior := ih hprevious
    exact hprior

theorem Survives.rules {start reducer : Reducer} {blocks : List (Block × List ReferencedCommit)}
    (h : Survives start blocks reducer) : reducer.rules = start.rules := by
  obtain ⟨fresh, hreplay, hreducer, -⟩ := h
  have hrules := Reducer.rules_replay hreplay
  rw [hreducer]
  exact hrules

namespace Survives

variable {start reducer next : Reducer} {blocks : List (Block × List ReferencedCommit)}

/-- The last block of a replay that has a journal. -/
theorem exists_last (hstart : start.toRecords.Indexed) (hempty : start.history = [])
    (hreplay : start.replay blocks = some next) (hnonempty : next.history ≠ []) :
    ∃ previous last outcome o, start.replay blocks.dropLast = some previous ∧
      blocks = blocks.dropLast ++ [last] ∧
      previous.applyBlockDetailed last.1 last.2 = some (.ok outcome, next) ∧
      next = previous.closeBlock last.1 o ∧ Tracks previous.ledger Set.univ Set.univ o := by
  rcases List.eq_nil_or_concat blocks with rfl | ⟨older, last, rfl⟩
  · cases hreplay
    exact absurd hempty hnonempty
  rw [List.concat_eq_append] at *
  rw [Reducer.replay_append, Option.bind_eq_some_iff] at hreplay
  obtain ⟨previous, hprevious, haccept⟩ := hreplay
  obtain ⟨outcome, happly⟩ := Reducer.accept_eq_some_iff.1 haccept
  have hindexed := Reducer.indexed_replay hstart hprevious
  rcases Reducer.applyBlockDetailed_spec hindexed last.1 last.2 with
    ⟨e, -, hfailed, -⟩ | ⟨outcome', o, s, hok, htracks, -⟩
  · rw [hfailed] at happly
    cases happly
  · rw [hok] at happly
    cases happly
    exact ⟨previous, last, outcome, o, by rwa [List.dropLast_concat],
      by rw [List.dropLast_concat], hok, rfl, htracks⟩

omit [Primitives] in
/-- A nonempty suffix of a list ends with its last element. -/
theorem suffix_concat {A : Type} {l older : List A} {a : A} (hl : l ≠ [])
    (h : l <:+ older ++ [a]) : ∃ retained, l = retained ++ [a] ∧ retained <:+ older := by
  rcases List.eq_nil_or_concat l with rfl | ⟨retained, b, rfl⟩
  · exact absurd rfl hl
  rw [List.concat_eq_append] at h ⊢
  obtain ⟨front, hfront⟩ := h
  rw [← List.append_assoc] at hfront
  obtain ⟨hinit, hlast⟩ := List.append_inj' hfront rfl
  cases hlast
  exact ⟨retained, rfl, front, hinit⟩

/-- **One call.** -/
theorem call (hstart : start.toRecords.Indexed) (hempty : start.history = [])
    (h : Survives start blocks reducer) {c : Call} {reply : Reply}
    (hcall : reducer.call c = some (reply, next)) :
    Survives start (survivorsAfter blocks (c, reply)) next := by
  obtain ⟨fresh, hreplay, hreducer, hsuffix⟩ := h
  have hindexed := Reducer.indexed_replay hstart hreplay
  cases c with
  | applyBlock block evidence =>
    rw [Reducer.call, Option.map_eq_some_iff] at hcall
    obtain ⟨result, happly, heq⟩ := hcall
    rw [hreducer] at happly
    rcases Reducer.applyBlockDetailed_withHistory hindexed reducer.history block evidence with
      ⟨e, -, hfailed⟩ | ⟨outcome, o, hfresh, hok, -⟩
    · rw [hfailed] at happly
      cases happly
      cases heq
      exact ⟨fresh, hreplay, rfl, hsuffix⟩
    · rw [hok] at happly
      cases happly
      cases heq
      refine ⟨fresh.closeBlock block o, ?_, rfl, ?_⟩
      · rw [survivorsAfter, Reducer.replay_append, hreplay]
        exact Reducer.accept_eq_some_iff.2 ⟨outcome, hfresh⟩
      · obtain ⟨older, holder⟩ := hsuffix
        refine ⟨older, ?_⟩
        rw [Reducer.closeBlock, Reducer.closeBlock, ← holder, List.append_assoc]
        rfl
  | rollbackTip expectedHash =>
    rw [Reducer.call, Option.some.injEq, Prod.mk.injEq] at hcall
    obtain ⟨rfl, rfl⟩ := hcall
    rcases reducer.rollbackTipDetailed_cases expectedHash with
      ⟨e, hfailed⟩ | ⟨delta, reverted, hok, hnonempty, hhash⟩
    · rw [hfailed]
      exact ⟨fresh, hreplay, hreducer, hsuffix⟩
    -- the newest retained journal is that of the last surviving block
    obtain ⟨previous, last, outcome, o, hprevious, -, -, hfresh, htracks⟩ :=
      exists_last hstart hempty hreplay (fun hnil ↦ hnonempty (by simpa [hnil] using hsuffix))
    rw [hfresh] at hsuffix
    obtain ⟨retained, hretained, hshorter⟩ := suffix_concat hnonempty hsuffix
    have hclose : reducer =
        ({ previous with history := retained } : Reducer).closeBlock last.1 o := by
      rw [hreducer, hfresh, hretained]
      rfl
    have hlast : last.1.hash = expectedHash := by
      rw [← hhash, hclose]
      rfl
    obtain ⟨delta', hrollback⟩ := Reducer.rollbackTipDetailed_of_close
      (Reducer.indexed_replay hstart hprevious) htracks retained
    rw [hclose, ← hlast, hrollback]
    exact ⟨previous, hprevious, rfl, hshorter⟩
  | finalizeThrough height =>
    rw [Reducer.call, Option.some.injEq, Prod.mk.injEq] at hcall
    obtain ⟨rfl, rfl⟩ := hcall
    rcases reducer.finalizeThrough_cases height with ⟨e, hfailed⟩ | ⟨history, hshorter, hok⟩
    · rw [hfailed]
      exact ⟨fresh, hreplay, hreducer, hsuffix⟩
    · rw [hok]
      refine ⟨fresh, hreplay, ?_, hshorter.trans hsuffix⟩
      dsimp only
      conv_lhs => rw [hreducer]

/-- **A whole run.** -/
theorem run (hstart : start.toRecords.Indexed) (hempty : start.history = [])
    (h : Survives start blocks reducer) {calls : List Call} {replies : List Reply}
    (hrun : reducer.run calls = some (replies, next)) :
    Survives start ((calls.zip replies).foldl survivorsAfter blocks) next := by
  induction calls generalizing reducer blocks replies with
  | nil =>
    cases hrun
    exact h
  | cons c calls ih =>
    obtain ⟨reply, middle, rest, hcall, hrest, rfl⟩ := Reducer.run_cons_eq_some_iff.1 hrun
    exact ih (h.call hstart hempty hcall) hrest

/-- The surviving blocks of a run from a new reducer. -/
theorem of_run {parameters : Parameters} {parent : Bytes32} {verifier : ProofVerifier}
    (hnew : Reducer.new parameters parent verifier = .ok start) {calls : List Call}
    {replies : List Reply} (hrun : start.run calls = some (replies, reducer)) :
    Survives start (survivors calls replies) reducer := by
  have hempty : start.history = [] := by
    obtain ⟨valid, rfl⟩ := Reducer.new_eq_ok_iff.1 hnew
    rfl
  have hself : Survives start [] start := ⟨start, rfl, rfl, List.suffix_refl _⟩
  exact hself.run (Reducer.indexed_new hnew) hempty hrun

end Survives

namespace Reducer

variable {reducer : Reducer}

/-- A run from indexed records does not panic. -/
theorem run_isSome (h : reducer.toRecords.Indexed) (calls : List Call) :
    ∃ replies next, reducer.run calls = some (replies, next) := by
  induction calls generalizing reducer with
  | nil => exact ⟨[], reducer, rfl⟩
  | cons c calls ih =>
    obtain ⟨⟨reply, middle⟩, hcall⟩ := Option.isSome_iff_exists.1 (call_isSome h c)
    obtain ⟨replies, next, hrun⟩ := ih (indexed_call h hcall)
    exact ⟨reply :: replies, next,
      run_cons_eq_some_iff.2 ⟨reply, middle, replies, hcall, hrun, rfl⟩⟩

theorem indexed_run (h : reducer.toRecords.Indexed) {calls : List Call} {replies : List Reply}
    {next : Reducer} (hrun : reducer.run calls = some (replies, next)) :
    next.toRecords.Indexed := by
  induction calls generalizing reducer replies with
  | nil =>
    cases hrun
    exact h
  | cons c calls ih =>
    obtain ⟨reply, middle, rest, hcall, hrest, rfl⟩ := run_cons_eq_some_iff.1 hrun
    exact ih (indexed_call h hcall) hrest

/-- A failing call changes nothing. -/
theorem call_of_error (h : reducer.toRecords.Indexed) {c : Call} {reply : Reply} {next : Reducer}
    (hcall : reducer.call c = some (reply, next)) (hreply : reply.isOk = false) :
    next = reducer := by
  cases c with
  | applyBlock block evidence =>
    rw [call, Option.map_eq_some_iff] at hcall
    obtain ⟨result, happly, heq⟩ := hcall
    cases heq
    rcases applyBlockDetailed_spec h block evidence with
      ⟨e, -, hfailed, -⟩ | ⟨outcome, o, s, hok, -⟩
    · rw [hfailed] at happly
      cases happly
      rfl
    · rw [hok] at happly
      cases happly
      cases hreply
  | rollbackTip expectedHash =>
    rw [call, Option.some.injEq, Prod.mk.injEq] at hcall
    obtain ⟨rfl, rfl⟩ := hcall
    rcases reducer.rollbackTipDetailed_cases expectedHash with
      ⟨e, hfailed⟩ | ⟨delta, reverted, hok, -⟩
    · rw [hfailed]
    · rw [hok] at hreply
      cases hreply
  | finalizeThrough height =>
    rw [call, Option.some.injEq, Prod.mk.injEq] at hcall
    obtain ⟨rfl, rfl⟩ := hcall
    rcases reducer.finalizeThrough_cases height with ⟨e, hfailed⟩ | ⟨history, -, hok⟩
    · rw [hfailed]
    · rw [hok] at hreply
      cases hreply

/-- Applying a block and rolling it back is the identity. -/
theorem rollback_of_apply (h : reducer.toRecords.Indexed) {block : Block}
    {evidence : List ReferencedCommit} {outcome : BlockOutcome} {next : Reducer}
    (happly : reducer.applyBlockDetailed block evidence = some (.ok outcome, next)) :
    ∃ delta, next.rollbackTipDetailed block.hash = (.ok delta, reducer) := by
  rcases applyBlockDetailed_spec h block evidence with
    ⟨e, -, hfailed, -⟩ | ⟨outcome', o, s, hok, htracks, -⟩
  · rw [hfailed] at happly
    cases happly
  · rw [hok] at happly
    cases happly
    exact rollbackTipDetailed_of_close h htracks reducer.history

end Reducer

/-- **Reorganisation soundness.** Any calls from a new reducer end, without a panic, in the state of
a fresh reducer that applied only the surviving blocks, with a suffix of its journals. In the state
reached, a failing call changes nothing and a rollback undoes the block applied last. -/
theorem reorganisation_sound {parameters : Parameters} {parent : Bytes32}
    {verifier : ProofVerifier} {start : Reducer}
    (hnew : Reducer.new parameters parent verifier = .ok start) (calls : List Call) :
    ∃ replies reducer, start.run calls = some (replies, reducer) ∧
      (∃ fresh, start.replay (survivors calls replies) = some fresh ∧
        reducer = { fresh with history := reducer.history } ∧
        reducer.history <:+ fresh.history) ∧
      (∀ c reply next, reducer.call c = some (reply, next) → reply.isOk = false →
        next = reducer) ∧
      ∀ block evidence outcome next,
        reducer.applyBlockDetailed block evidence = some (.ok outcome, next) →
        ∃ delta, next.rollbackTipDetailed block.hash = (.ok delta, reducer) := by
  have hindexed := Reducer.indexed_new hnew
  obtain ⟨replies, reducer, hrun⟩ := Reducer.run_isSome hindexed calls
  have hlast := Reducer.indexed_run hindexed hrun
  exact ⟨replies, reducer, hrun, Survives.of_run hnew hrun,
    fun c reply next ↦ Reducer.call_of_error hlast,
    fun block evidence outcome next ↦ Reducer.rollback_of_apply hlast⟩

end Reorg

namespace Sample

/-- A run with a rollback under a wrong hash, one under the right hash, and the same block again. -/
def reorgCalls : List Call :=
  [.applyBlock block0 [], .applyBlock block1 [], .finalizeThrough 0, .rollbackTip block0.hash,
    .rollbackTip block1.hash, .applyBlock block1 [], .applyBlock block2 []]

theorem reorganisation_sound_calls :
    ∃ replies reducer, start.run reorgCalls = some (replies, reducer) ∧
      (∃ fresh, start.replay (survivors reorgCalls replies) = some fresh ∧
        reducer = { fresh with history := reducer.history } ∧
        reducer.history <:+ fresh.history) ∧
      (∀ c reply next, reducer.call c = some (reply, next) → reply.isOk = false →
        next = reducer) ∧
      ∀ block evidence outcome next,
        reducer.applyBlockDetailed block evidence = some (.ok outcome, next) →
        ∃ delta, next.rollbackTipDetailed block.hash = (.ok delta, reducer) :=
  reorganisation_sound new_eq_start reorgCalls

end Sample

end CoppiceNames
