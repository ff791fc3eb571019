import CoppiceNames.Library.Checked
import CoppiceNames.Library.PeriodicWindows
import CoppiceNames.Protocol.Schedule

/-!
# Operation windows

The windows of a name over all epochs, as periodic windows over the natural numbers, and the
acquisition windows of a height range (`operation_windows_descending` of `schedule.rs`).

The checked sums of the source fail only where the plain ones leave `u32`: a window of the source is
the plain window, or there is none (`window_eq_ok_iff`).
-/

open Std hiding not_le not_lt

namespace CoppiceNames

section Windows

variable [Primitives]

namespace Parameters

/-! ### Windows in plain arithmetic -/

variable {parameters : Parameters}

/-- The window of an epoch, in plain arithmetic. -/
theorem window_eq_ok_iff (hvalid : parameters.Valid) {id : NameId}
    {epoch : U32} {window : Window} : parameters.window id epoch = .ok window ↔
      window.start.val = parameters.activationHeight.val + epoch.val * parameters.epochBlocks.val +
        (parameters.offset id).val ∧
      window.stop.val = window.start.val + parameters.windowBlocks.val := by
  rw [Parameters.window, validate_eq_ok_iff.2 hvalid]
  constructor
  · intro h
    rcases hmul : U32.checkedMul epoch parameters.epochBlocks with - | a
    · simp [hmul, bind, Except.bind] at h
    rcases hstart : U32.checkedAdd parameters.activationHeight a with - | b
    · simp [hmul, hstart, bind, Except.bind] at h
    rcases hoffset : U32.checkedAdd b (parameters.offset id) with - | c
    · simp [hmul, hstart, hoffset, bind, Except.bind] at h
    rcases hstop : U32.checkedAdd c parameters.windowBlocks with - | d
    · simp [hmul, hstart, hoffset, hstop, bind, Except.bind] at h
    simp only [hmul, hstart, hoffset, hstop, bind, Except.bind, pure, Except.pure,
      Except.ok.injEq] at h
    rw [← h]
    rw [U32.checkedMul_eq_some_iff] at hmul
    rw [U32.checkedAdd_eq_some_iff] at hstart hoffset hstop
    exact ⟨by rw [hoffset, hstart, hmul], hstop⟩
  · rintro ⟨hstart, hstop⟩
    have hlt := window.start.isLt
    have hmul : U32.checkedMul epoch parameters.epochBlocks =
        some ⟨epoch.val * parameters.epochBlocks.val, by omega⟩ :=
      U32.checkedMul_eq_some_iff.2 rfl
    have hfirst : U32.checkedAdd parameters.activationHeight
        ⟨epoch.val * parameters.epochBlocks.val, by omega⟩ =
        some ⟨parameters.activationHeight.val + epoch.val * parameters.epochBlocks.val,
          by omega⟩ := U32.checkedAdd_eq_some_iff.2 rfl
    have hoffset : U32.checkedAdd
        ⟨parameters.activationHeight.val + epoch.val * parameters.epochBlocks.val, by omega⟩
        (parameters.offset id) = some window.start := U32.checkedAdd_eq_some_iff.2 hstart
    have hlast : U32.checkedAdd window.start parameters.windowBlocks = some window.stop :=
      U32.checkedAdd_eq_some_iff.2 hstop
    simp only [hmul, hfirst, hoffset, hlast, bind, Except.bind, pure, Except.pure]

theorem offset_val (hvalid : parameters.Valid) (id : NameId) :
    (parameters.offset id).val =
      leNat ((Primitives.blake2b256 (lit "CoppiceNmOff")
        (parameters.deploymentId.toList ++ id.bytes.toList)).toList.take 8) %
        (parameters.epochBlocks.val - parameters.windowBlocks.val + 1) := by
  have hle : parameters.windowBlocks ≤ parameters.epochBlocks :=
    hvalid.window_le.trans (hvalid.maturity_lt.trans hvalid.ttl_lt).le
  have hpos : 0 < parameters.windowBlocks.val := hvalid.window_pos
  have hsub := Fin.sub_val_of_le hle
  have hlt := parameters.epochBlocks.isLt
  have hspan : (parameters.epochBlocks - parameters.windowBlocks + 1).val =
      parameters.epochBlocks.val - parameters.windowBlocks.val + 1 := by
    rw [Fin.val_add_one_of_lt', hsub]
    omega
  rw [offset, hspan, Fin.val_ofNat, Nat.mod_eq_of_lt]
  exact (Nat.mod_lt _ (Nat.succ_pos _)).trans (by omega)

/-- The windows of a name, without overflow. -/
def windows (hvalid : parameters.Valid) (nameId : NameId) : PeriodicWindows where
  origin := parameters.activationHeight.val
  period := parameters.epochBlocks.val
  offset := leNat ((Primitives.blake2b256 (lit "CoppiceNmOff")
    (parameters.deploymentId.toList ++ nameId.bytes.toList)).toList.take 8) %
      (parameters.epochBlocks.val - parameters.windowBlocks.val + 1)
  width := parameters.windowBlocks.val
  width_pos := hvalid.window_pos
  fits := by
    have hle : parameters.windowBlocks < parameters.epochBlocks :=
      hvalid.window_le.trans_lt (hvalid.maturity_lt.trans hvalid.ttl_lt)
    exact Nat.add_le_of_le_sub hle.le (Nat.le_of_lt_succ (Nat.mod_lt _ (Nat.succ_pos _)))

/-- A window of the source is the plain one, where that fits `u32`. -/
theorem window_eq_ok_iff_windows (hvalid : parameters.Valid) {nameId : NameId} {epoch : U32}
    {window : Window} : parameters.window nameId epoch = .ok window ↔
      window.start.val = (windows hvalid nameId).start epoch.val ∧
      window.stop.val = (windows hvalid nameId).stop epoch.val := by
  rw [window_eq_ok_iff hvalid, offset_val hvalid]
  refine and_congr_right fun h ↦ ?_
  rw [PeriodicWindows.stop, show (windows hvalid nameId).start epoch.val =
    window.start.val from h.symm]
  rfl

theorem exists_window_iff (hvalid : parameters.Valid) {nameId : NameId} {epoch : U32} :
    (∃ window, parameters.window nameId epoch = .ok window) ↔
      (windows hvalid nameId).stop epoch.val ≤ 4294967295 := by
  constructor
  · rintro ⟨window, hwindow⟩
    rw [← ((window_eq_ok_iff_windows hvalid).1 hwindow).2]
    exact Nat.le_of_lt_succ window.stop.isLt
  · intro hstop
    have hstart : (windows hvalid nameId).start epoch.val ≤
      (windows hvalid nameId).stop epoch.val :=
      Nat.le_add_right _ _
    exact ⟨⟨⟨_, Nat.lt_succ_of_le (hstart.trans hstop)⟩, ⟨_, Nat.lt_succ_of_le hstop⟩⟩,
      (window_eq_ok_iff_windows hvalid).2 ⟨rfl, rfl⟩⟩

/-- Nothing but an overflow keeps a valid deployment from having a window. -/
theorem window_eq_ok_or_overflow (hvalid : parameters.Valid) (nameId : NameId) (epoch : U32) :
    (∃ window, parameters.window nameId epoch = .ok window) ∨
      parameters.window nameId epoch = .error .overflow := by
  rw [Parameters.window, validate_eq_ok_iff.2 hvalid]
  rcases hmul : U32.checkedMul epoch parameters.epochBlocks with - | a
  · exact Or.inr (by simp [bind, Except.bind])
  rcases hstart : U32.checkedAdd parameters.activationHeight a with - | b
  · exact Or.inr (by simp [hstart, bind, Except.bind])
  rcases hoffset : U32.checkedAdd b (parameters.offset nameId) with - | c
  · exact Or.inr (by simp [hstart, hoffset, bind, Except.bind])
  rcases hstop : U32.checkedAdd c parameters.windowBlocks with - | d
  · exact Or.inr (by simp [hstart, hoffset, hstop, bind, Except.bind])
  · exact Or.inl ⟨⟨c, d⟩, by
      simp [hstart, hoffset, hstop, bind, Except.bind, pure, Except.pure]⟩

/-- A window overflows exactly when its end leaves `u32`. -/
theorem window_eq_overflow_iff (hvalid : parameters.Valid) {nameId : NameId} {epoch : U32} :
    parameters.window nameId epoch = .error .overflow ↔
      4294967295 < (windows hvalid nameId).stop epoch.val := by
  rw [← not_iff_not, not_lt, ← exists_window_iff hvalid]
  constructor
  · exact (window_eq_ok_or_overflow hvalid nameId epoch).resolve_right
  · rintro ⟨window, hwindow⟩ hoverflow
    exact absurd (hwindow.symm.trans hoverflow) (by simp)

theorem contains_iff_covers (hvalid : parameters.Valid) {nameId : NameId} {epoch height : U32}
    {window : Window} (h : parameters.window nameId epoch = .ok window) :
    window.contains height = true ↔ (windows hvalid nameId).Covers epoch.val height.val := by
  obtain ⟨hstart, hstop⟩ := (window_eq_ok_iff_windows hvalid).1 h
  rw [Window.contains, Bool.and_eq_true, decide_eq_true_eq, decide_eq_true_eq, Fin.le_def,
    Fin.lt_def, hstart, hstop]
  rfl

/-- A window does not leave its epoch. -/
theorem epoch_eq_of_contains (hvalid : parameters.Valid) {nameId : NameId} {epoch height : U32}
    {window : Window} (h : parameters.window nameId epoch = .ok window)
    (hcontains : window.contains height = true) : parameters.epoch height = .ok epoch := by
  have hcovers := (contains_iff_covers hvalid h).1 hcontains
  exact epoch_eq_ok_iff.2 ⟨hcovers.origin_le, hcovers.index_eq.symm⟩

/-! ### Heights that accept operations -/

/-- A height at which a name accepts operations lies in the name's window of its epoch. -/
theorem window_of_acceptsOperation {nameId : NameId}
    {height : U32} (h : parameters.acceptsOperation nameId height = true) :
    ∃ epoch window, parameters.epoch height = .ok epoch ∧
      parameters.window nameId epoch = .ok window ∧ window.contains height = true := by
  rw [acceptsOperation] at h
  split at h
  · exact absurd h Bool.false_ne_true
  · rename_i epoch hepoch
    split at h
    · exact absurd h Bool.false_ne_true
    · rename_i window hwindow
      exact ⟨epoch, window, hepoch, hwindow, h⟩

/-- **The per-height test, in plain arithmetic.** -/
theorem acceptsOperation_iff (hvalid : parameters.Valid) {nameId : NameId} {height : U32} :
    parameters.acceptsOperation nameId height = true ↔ ∃ index,
      (windows hvalid nameId).Covers index height.val ∧
        (windows hvalid nameId).stop index ≤ 4294967295 := by
  constructor
  · intro h
    obtain ⟨epoch, window, -, hwindow, hcontains⟩ := window_of_acceptsOperation h
    exact ⟨epoch.val, (contains_iff_covers hvalid hwindow).1 hcontains,
      (exists_window_iff hvalid).1 ⟨window, hwindow⟩⟩
  · rintro ⟨index, hcovers, hstop⟩
    have hindex : index < 4294967296 := by
      have hmul : index * 1 ≤ index * parameters.epochBlocks.val :=
        Nat.mul_le_mul_left _ hvalid.epoch_pos
      have hle : index * parameters.epochBlocks.val ≤ (windows hvalid nameId).start index :=
        (Nat.le_add_left _ _).trans (Nat.le_add_right _ _)
      have hstart := hcovers.1
      have hlt := height.isLt
      omega
    obtain ⟨window, hwindow⟩ : ∃ window, parameters.window nameId ⟨index, hindex⟩ = .ok window :=
      (exists_window_iff hvalid).2 hstop
    have hcontains := (contains_iff_covers hvalid hwindow).2 hcovers
    rw [acceptsOperation, epoch_eq_of_contains hvalid hwindow hcontains]
    dsimp only
    rw [hwindow]
    exact hcontains

/-- A height accepts operations exactly when it is in the window of some epoch. -/
theorem acceptsOperation_iff_exists_window (hvalid : parameters.Valid) {nameId : NameId}
    {height : U32} : parameters.acceptsOperation nameId height = true ↔
      ∃ epoch window, parameters.window nameId epoch = .ok window ∧
        window.contains height = true := by
  constructor
  · intro h
    obtain ⟨epoch, window, -, hwindow, hcontains⟩ := window_of_acceptsOperation h
    exact ⟨epoch, window, hwindow, hcontains⟩
  · rintro ⟨epoch, window, hwindow, hcontains⟩
    exact (acceptsOperation_iff hvalid).2 ⟨epoch.val,
      (contains_iff_covers hvalid hwindow).1 hcontains,
      (exists_window_iff hvalid).1 ⟨window, hwindow⟩⟩

omit [Primitives] in
/-- A lease is refused exactly when its end leaves `u32`. -/
theorem exists_expiry_iff {height : U32} : (∃ expiry, parameters.expiry height = .ok expiry) ↔
    height.val + parameters.leaseBlocks.val ≤ 4294967295 := by
  constructor
  · rintro ⟨expiry, h⟩
    rw [← expiry_eq_ok_iff.1 h]
    exact Nat.le_of_lt_succ expiry.isLt
  · intro h
    exact ⟨⟨_, Nat.lt_succ_of_le h⟩, expiry_eq_ok_iff.2 rfl⟩

/-! ### Acquisition windows -/

variable (parameters) in
/-- One epoch of the loop of `operation_windows_descending`: the window clipped to the range, when
something is left of it. -/
def clippedWindow (nameId : NameId) (start stop epoch : U32) :
    Except ScheduleError (Option Window) := do
  let window ← parameters.window nameId epoch
  let clipped : Window := ⟨max window.start start, min window.stop stop⟩
  return if clipped.start < clipped.stop then some clipped else none

/-- The epochs from `last` down to `first`. -/
def epochsDescending (first last : U32) : List U32 :=
  (List.range (last.val + 1 - first.val)).map fun i ↦ Fin.ofNat _ (last.val - i)

variable (parameters) in
/-- `Parameters::operation_windows_descending`. -/
def operationWindowsDescending (nameId : NameId) (start stop : U32) :
    Except ScheduleError (List Window) :=
  match parameters.validate with
  | .error e => .error e
  | .ok () =>
    if start ≥ stop then .error .invalidRange
    else
      let effectiveStart := max start parameters.activationHeight
      if effectiveStart ≥ stop then .ok []
      else do
        let first ← parameters.epoch effectiveStart
        let last ← parameters.epoch (stop - 1)
        let windows ← (epochsDescending first last).mapM
          (parameters.clippedWindow nameId effectiveStart stop)
        return windows.reduceOption

omit [Primitives] in
theorem epochsDescending_val {last : U32} (i : ℕ) :
    (Fin.ofNat 4294967296 (last.val - i)).val = last.val - i :=
  Nat.mod_eq_of_lt ((Nat.sub_le _ _).trans_lt last.isLt)

omit [Primitives] in
theorem mem_epochsDescending {first last epoch : U32} :
    epoch ∈ epochsDescending first last ↔ first ≤ epoch ∧ epoch ≤ last := by
  rw [epochsDescending, List.mem_map]
  constructor
  · rintro ⟨i, hi, rfl⟩
    rw [List.mem_range] at hi
    rw [Fin.le_def, Fin.le_def, epochsDescending_val]
    omega
  · rintro ⟨hfirst, hlast⟩
    rw [Fin.le_def] at hfirst hlast
    refine ⟨last.val - epoch.val, List.mem_range.2 (by omega), Fin.ext ?_⟩
    rw [epochsDescending_val]
    omega

omit [Primitives] in
/-- The loop starts at the newest epoch. -/
theorem epochsDescending_eq_cons {first last : U32} (h : first ≤ last) :
    ∃ older, epochsDescending first last = last :: older := by
  rw [Fin.le_def] at h
  rw [epochsDescending, show last.val + 1 - first.val = (last.val - first.val) + 1 by omega,
    List.range_succ_eq_map, List.map_cons]
  exact ⟨_, congrArg (· :: _) (Fin.ext (epochsDescending_val 0))⟩

omit [Primitives] in
/-- Every epoch is newer than the ones after it. -/
theorem pairwise_epochsDescending (first last : U32) :
    (epochsDescending first last).Pairwise (· > ·) := by
  rw [epochsDescending, List.pairwise_map]
  refine List.pairwise_lt_range.imp_of_mem fun {i j} hi hj hlt ↦ ?_
  rw [List.mem_range] at hi hj
  show (Fin.ofNat 4294967296 (last.val - j)).val < (Fin.ofNat 4294967296 (last.val - i)).val
  rw [epochsDescending_val, epochsDescending_val]
  omega

section Clipping

variable {nameId : NameId} {start stop epoch : U32} {clipped : Option Window}

theorem clippedWindow_eq_ok_iff :
    parameters.clippedWindow nameId start stop epoch = .ok clipped ↔
      ∃ window, parameters.window nameId epoch = .ok window ∧
        clipped = if max window.start start < min window.stop stop then
          some ⟨max window.start start, min window.stop stop⟩ else none := by
  rw [clippedWindow, Except.bind_eq_ok_iff]
  exact exists_congr fun window ↦ and_congr_right' ⟨fun h ↦ (Except.ok.inj h).symm, fun h ↦ h ▸ rfl⟩

theorem exists_clippedWindow_iff (hvalid : parameters.Valid) :
    (∃ clipped, parameters.clippedWindow nameId start stop epoch = .ok clipped) ↔
      (windows hvalid nameId).stop epoch.val ≤ 4294967295 := by
  rw [← exists_window_iff hvalid]
  constructor
  · rintro ⟨clipped, h⟩
    obtain ⟨window, hwindow, -⟩ := clippedWindow_eq_ok_iff.1 h
    exact ⟨window, hwindow⟩
  · rintro ⟨window, hwindow⟩
    exact ⟨_, clippedWindow_eq_ok_iff.2 ⟨window, hwindow, rfl⟩⟩

/-- What is left of the window of an epoch lies in the range and in the plain window. -/
theorem clippedWindow_eq_some (hvalid : parameters.Valid) {window : Window}
    (h : parameters.clippedWindow nameId start stop epoch = .ok (some window)) :
    window.start < window.stop ∧
      window.start.val = max ((windows hvalid nameId).start epoch.val) start.val ∧
      window.stop.val = min ((windows hvalid nameId).stop epoch.val) stop.val := by
  obtain ⟨full, hfull, hclip⟩ := clippedWindow_eq_ok_iff.1 h
  obtain ⟨hstart, hstop⟩ := (window_eq_ok_iff_windows hvalid).1 hfull
  rw [← hstart, ← hstop]
  by_cases hne : max full.start start < min full.stop stop
  · rw [if_pos hne] at hclip
    rw [Option.some.inj hclip]
    exact ⟨hne, Fin.coe_max .., Fin.coe_min ..⟩
  · rw [if_neg hne] at hclip
    exact absurd hclip (by simp)

/-- The heights of the range in the window of an epoch are those of what is left of it. -/
theorem exists_clippedWindow_contains_iff (hvalid : parameters.Valid)
    (h : parameters.clippedWindow nameId start stop epoch = .ok clipped) {height : U32} :
    (∃ window, clipped = some window ∧ window.contains height = true) ↔
      (windows hvalid nameId).Covers epoch.val height.val ∧ start ≤ height ∧ height < stop := by
  obtain ⟨full, hfull, rfl⟩ := clippedWindow_eq_ok_iff.1 h
  rw [← contains_iff_covers hvalid hfull]
  simp only [Window.contains, Bool.and_eq_true, decide_eq_true_eq]
  constructor
  · rintro ⟨window, hwindow, hfrom, huntil⟩
    split at hwindow
    · rw [← Option.some.inj hwindow] at hfrom huntil
      obtain ⟨hfull, hstart⟩ := Std.max_le_iff.1 hfrom
      obtain ⟨hfull', hstop⟩ := lt_min_iff.1 huntil
      exact ⟨⟨hfull, hfull'⟩, hstart, hstop⟩
    · exact absurd hwindow (by simp)
  · rintro ⟨⟨hfull, hfull'⟩, hstart, hstop⟩
    have hfrom := max_le hfull hstart
    have huntil := lt_min hfull' hstop
    rw [if_pos (hfrom.trans_lt huntil)]
    exact ⟨_, rfl, hfrom, huntil⟩

end Clipping

section Acquisition

variable {nameId : NameId} {start stop : U32}

omit [Primitives] in
/-- The height before the end of a range that is not empty. -/
theorem pred_val (h : start < stop) : (stop - 1).val = stop.val - 1 := by
  rw [Fin.lt_def] at h
  have hle : (1 : U32) ≤ stop := by
    rw [Fin.le_def, show (1 : U32).val = 1 from rfl]
    omega
  exact Fin.sub_val_of_le hle

/-- The loop, when some of the range is not before activation. -/
theorem operationWindowsDescending_loop (hvalid : parameters.Valid) (hrange : start < stop)
    (hactive : parameters.activationHeight < stop) : ∃ first last,
      parameters.epoch (max start parameters.activationHeight) = .ok first ∧
      parameters.epoch (stop - 1) = .ok last ∧ first ≤ last ∧
      parameters.operationWindowsDescending nameId start stop =
        (epochsDescending first last).mapM (parameters.clippedWindow nameId
          (max start parameters.activationHeight) stop) >>= fun windows ↦
            .ok windows.reduceOption := by
  have hbefore : max start parameters.activationHeight < stop := max_lt hrange hactive
  have hpred := pred_val hbefore
  have hle : max start parameters.activationHeight ≤ stop - 1 := by
    rw [Fin.le_def, hpred]
    rw [Fin.lt_def] at hbefore
    omega
  have hepoch : ∀ height, parameters.activationHeight ≤ height → ∃ epoch : U32,
      parameters.epoch height = .ok epoch :=
    fun height h ↦ ⟨_, if_neg (not_lt.2 h)⟩
  obtain ⟨first, hfirst⟩ := hepoch _ (le_max_right start parameters.activationHeight)
  obtain ⟨last, hlast⟩ := hepoch _ ((le_max_right _ _).trans hle)
  refine ⟨first, last, hfirst, hlast, ?_, ?_⟩
  · rw [Fin.le_def, (epoch_eq_ok_iff.1 hfirst).2, (epoch_eq_ok_iff.1 hlast).2]
    exact Nat.div_le_div_right (Nat.sub_le_sub_right hle _)
  · rw [operationWindowsDescending, validate_eq_ok_iff.2 hvalid]
    dsimp only
    rw [if_neg (not_le.2 hrange), if_neg (not_le.2 hbefore), hfirst, hlast]
    rfl

/-- The acquisition windows of a range. -/
structure Acquired (parameters : Parameters) (nameId : NameId) (start stop : U32)
    (acquired : List Window) : Prop where
  nonempty : ∀ window ∈ acquired, window.start < window.stop
  within : ∀ window ∈ acquired,
    max start parameters.activationHeight ≤ window.start ∧ window.stop ≤ stop
  /-- Newest first, and disjoint: a window begins where the next one has ended. -/
  descending : acquired.Pairwise fun newer older ↦ older.stop ≤ newer.start
  complete : ∀ height, start ≤ height → height < stop →
    (parameters.acceptsOperation nameId height = true ↔
      ∃ window ∈ acquired, window.contains height = true)

/-- What the loop collects when the newest window is representable. -/
theorem acquired_of_loop (hvalid : parameters.Valid) {first last : U32}
    (hfirst : parameters.epoch (max start parameters.activationHeight) = .ok first)
    (hlast : parameters.epoch (stop - 1) = .ok last) {windows : List (Option Window)}
    (hloop : (epochsDescending first last).mapM (parameters.clippedWindow nameId
      (max start parameters.activationHeight) stop) = .ok windows) :
    Acquired parameters nameId start stop windows.reduceOption := by
  -- every acquisition window is what is left of the window of an epoch in the range
  have hmem : ∀ window, window ∈ windows.reduceOption ↔ ∃ epoch ∈ epochsDescending first last,
      parameters.clippedWindow nameId (max start parameters.activationHeight) stop epoch =
        .ok (some window) := by
    intro window
    rw [List.reduceOption_mem_iff, Except.mem_iff_of_mapM_eq_ok hloop]
  constructor
  · intro window hwindow
    obtain ⟨epoch, -, hclip⟩ := (hmem window).1 hwindow
    exact (clippedWindow_eq_some hvalid hclip).1
  · intro window hwindow
    obtain ⟨epoch, -, hclip⟩ := (hmem window).1 hwindow
    obtain ⟨-, hstart, hstop⟩ := clippedWindow_eq_some hvalid hclip
    rw [Fin.le_def, Fin.le_def, hstart, hstop]
    exact ⟨le_max_right _ _, min_le_right _ _⟩
  · rw [List.reduceOption, List.pairwise_filterMap]
    refine Except.pairwise_of_mapM_eq_ok hloop (pairwise_epochsDescending first last) ?_
    intro newer older a b hlt ha hb window hwindow window' hwindow'
    rw [show a = some window from hwindow] at ha
    rw [show b = some window' from hwindow'] at hb
    obtain ⟨-, hstart, -⟩ := clippedWindow_eq_some hvalid ha
    obtain ⟨-, -, hstop⟩ := clippedWindow_eq_some hvalid hb
    rw [Fin.le_def, hstart, hstop]
    have hdisjoint : (Parameters.windows hvalid nameId).stop older.val ≤
        (Parameters.windows hvalid nameId).start newer.val := PeriodicWindows.stop_le_start hlt
    exact (min_le_left _ _).trans (hdisjoint.trans (le_max_left _ _))
  · intro height hstart hstop
    constructor
    · intro haccepts
      obtain ⟨epoch, full, hepoch, hfull, hcontains⟩ := window_of_acceptsOperation haccepts
      obtain ⟨hactive, hvalue⟩ := epoch_eq_ok_iff.1 hepoch
      have hfrom : max start parameters.activationHeight ≤ height := max_le hstart hactive
      have hin : epoch ∈ epochsDescending first last := by
        refine mem_epochsDescending.2 ⟨?_, ?_⟩
        · rw [Fin.le_def, (epoch_eq_ok_iff.1 hfirst).2, hvalue]
          exact Nat.div_le_div_right (Nat.sub_le_sub_right hfrom _)
        · have hlt : height.val < stop.val := hstop
          rw [Fin.le_def, (epoch_eq_ok_iff.1 hlast).2, hvalue, pred_val hstop]
          exact Nat.div_le_div_right (by omega)
      obtain ⟨i, hi⟩ := List.mem_iff_getElem?.1 hin
      obtain ⟨clipped, hclipped, hclip⟩ := Except.mapM_getElem? hloop hi
      obtain ⟨window, rfl, hcovered⟩ := (exists_clippedWindow_contains_iff hvalid hclip).2
        ⟨(contains_iff_covers hvalid hfull).1 hcontains, hfrom, hstop⟩
      exact ⟨window, (hmem window).2 ⟨epoch, hin, hclip⟩, hcovered⟩
    · rintro ⟨window, hwindow, hcontains⟩
      obtain ⟨epoch, -, hclip⟩ := (hmem window).1 hwindow
      obtain ⟨hcovers, -, -⟩ := (exists_clippedWindow_contains_iff hvalid hclip).1
        ⟨window, rfl, hcontains⟩
      exact (acceptsOperation_iff hvalid).2
        ⟨epoch.val, hcovers, (exists_clippedWindow_iff hvalid).1 ⟨_, hclip⟩⟩

/-- **Acquisition windows are complete and exact.** A range is refused when it is empty, or when its
newest window is not representable; otherwise its windows are those of the heights that accept
operations, and a height accepts operations exactly in the window of some epoch. -/
theorem operation_windows_exact (hvalid : parameters.Valid) (nameId : NameId) (start stop : U32) :
    (parameters.operationWindowsDescending nameId start stop = .error .invalidRange ↔
        stop ≤ start) ∧
      (parameters.operationWindowsDescending nameId start stop = .error .overflow ↔
        start < stop ∧ parameters.activationHeight < stop ∧ ∃ epoch,
          parameters.epoch (stop - 1) = .ok epoch ∧
            4294967295 < (windows hvalid nameId).stop epoch.val) ∧
      ((∃ acquired, parameters.operationWindowsDescending nameId start stop = .ok acquired ∧
          Acquired parameters nameId start stop acquired) ∨
        parameters.operationWindowsDescending nameId start stop = .error .invalidRange ∨
        parameters.operationWindowsDescending nameId start stop = .error .overflow) ∧
      (∀ height, parameters.acceptsOperation nameId height = true ↔ ∃ epoch window,
        parameters.window nameId epoch = .ok window ∧ window.contains height = true) ∧
      ∀ epoch window height, parameters.window nameId epoch = .ok window →
        window.contains height = true → parameters.epoch height = .ok epoch := by
  refine and_assoc.1 (and_assoc.1 ⟨?_, fun height ↦ acceptsOperation_iff_exists_window hvalid,
    fun epoch window height ↦ epoch_eq_of_contains hvalid⟩)
  by_cases hrange : start < stop
  swap
  · have hempty : parameters.operationWindowsDescending nameId start stop =
      .error .invalidRange := by
      rw [operationWindowsDescending, validate_eq_ok_iff.2 hvalid]
      exact if_pos (not_lt.1 hrange)
    simp [hempty, hrange, not_lt.1 hrange]
  by_cases hactive : parameters.activationHeight < stop
  swap
  · have hbefore : parameters.operationWindowsDescending nameId start stop = .ok [] := by
      rw [operationWindowsDescending, validate_eq_ok_iff.2 hvalid]
      dsimp only
      rw [if_neg (not_le.2 hrange)]
      exact if_pos (le_max_of_le_right (not_lt.1 hactive))
    have hacquired : Acquired parameters nameId start stop [] := by
      refine ⟨by simp, by simp, List.Pairwise.nil, fun height _ hheight ↦ ?_⟩
      refine ⟨fun haccepts ↦ ?_, fun h ↦ absurd h (by simp)⟩
      obtain ⟨epoch, -, hepoch, -⟩ := window_of_acceptsOperation haccepts
      exact absurd ((epoch_eq_ok_iff.1 hepoch).1.trans_lt hheight) hactive
    simp [hbefore, hrange, hactive, hacquired]
  obtain ⟨first, last, hfirst, hlast, hle, hloop⟩ :=
    operationWindowsDescending_loop hvalid hrange hactive
  by_cases hover : 4294967295 < (windows hvalid nameId).stop last.val
  · -- the newest window comes first, and ends the loop
    obtain ⟨older, hepochs⟩ := epochsDescending_eq_cons hle
    have herror : parameters.operationWindowsDescending nameId start stop = .error .overflow := by
      rw [hloop, hepochs, List.mapM_cons, clippedWindow, (window_eq_overflow_iff hvalid).2 hover]
      rfl
    rw [herror]
    exact ⟨⟨⟨fun h ↦ absurd h (by simp), fun h ↦ absurd hrange (not_lt.2 h)⟩,
      fun _ ↦ ⟨hrange, hactive, last, hlast, hover⟩, fun _ ↦ rfl⟩, Or.inr (Or.inr rfl)⟩
  · -- older windows end before the newest one, so the whole loop succeeds
    have hclipped : ∀ epoch ∈ epochsDescending first last, ∃ clipped,
      parameters.clippedWindow nameId
        (max start parameters.activationHeight) stop epoch = .ok clipped := fun epoch hepoch ↦
      (exists_clippedWindow_iff hvalid).2 ((PeriodicWindows.stop_mono
        (mem_epochsDescending.1 hepoch).2).trans (not_lt.1 hover))
    obtain ⟨collected, hcollected⟩ := Except.exists_mapM_eq_ok_iff.2 hclipped
    have hok : parameters.operationWindowsDescending nameId start stop =
        .ok collected.reduceOption := by
      rw [hloop, hcollected]
      rfl
    rw [hok]
    refine ⟨⟨⟨fun h ↦ absurd h (by simp), fun h ↦ absurd hrange (not_lt.2 h)⟩,
      fun h ↦ absurd h (by simp), ?_⟩,
      Or.inl ⟨_, rfl, acquired_of_loop hvalid hfirst hlast hcollected⟩⟩
    rintro ⟨-, -, epoch, hepoch, hoverflow⟩
    rw [Except.ok.inj (hepoch.symm.trans hlast)] at hoverflow
    exact absurd hoverflow hover

end Acquisition

end Parameters

end Windows

namespace Sample

/-- The acquisition windows of nine heights of the small deployment. -/
theorem operation_windows_exact_nine :
    (parameters.operationWindowsDescending (NameId.ofField 1 (by decide)) 0 9 =
        .error .invalidRange ↔ (9 : U32) ≤ 0) ∧
      (parameters.operationWindowsDescending (NameId.ofField 1 (by decide)) 0 9 =
          .error .overflow ↔
        (0 : U32) < 9 ∧ parameters.activationHeight < 9 ∧ ∃ epoch,
          parameters.epoch (9 - 1) = .ok epoch ∧ 4294967295 <
            (Parameters.windows parameters_valid (NameId.ofField 1 (by decide))).stop epoch.val) ∧
      ((∃ acquired, parameters.operationWindowsDescending (NameId.ofField 1 (by decide)) 0 9 =
            .ok acquired ∧
          Parameters.Acquired parameters (NameId.ofField 1 (by decide)) 0 9 acquired) ∨
        parameters.operationWindowsDescending (NameId.ofField 1 (by decide)) 0 9 =
          .error .invalidRange ∨
        parameters.operationWindowsDescending (NameId.ofField 1 (by decide)) 0 9 =
          .error .overflow) ∧
      (∀ height, parameters.acceptsOperation (NameId.ofField 1 (by decide)) height = true ↔
        ∃ epoch window, parameters.window (NameId.ofField 1 (by decide)) epoch = .ok window ∧
          window.contains height = true) ∧
      ∀ epoch window height, parameters.window (NameId.ofField 1 (by decide)) epoch = .ok window →
        window.contains height = true → parameters.epoch height = .ok epoch :=
  Parameters.operation_windows_exact parameters_valid (NameId.ofField 1 (by decide)) 0 9

end Sample

end CoppiceNames
