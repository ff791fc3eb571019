import CoppiceNames.Protocol.Values

/-!
# Height schedule and lifecycle arithmetic

The parameters of a deployment and the height-only rules of `schedule.rs`: epochs, a name's
operation window in each epoch, COMMIT maturity and lifetime, lease expiry. Every checked addition
and multiplication of the source is a checked one here, and a direct subtraction is the `u32` one.
-/

namespace CoppiceNames

/-- `ScheduleError`. -/
inductive ScheduleError
  | invalidParameters
  | invalidRange
  | beforeActivation
  | overflow
  deriving DecidableEq, Repr

/-- `Parameters`: the timing of one deployment. -/
structure Parameters where
  deploymentId : Bytes32
  activationHeight : U32
  epochBlocks : U32
  windowBlocks : U32
  commitMaturityBlocks : U32
  commitTtlBlocks : U32
  leaseBlocks : U32
  cooldownBlocks : U32
  deriving DecidableEq

/-- `Window`: a half-open height interval. -/
structure Window where
  start : U32
  stop : U32
  deriving DecidableEq

/-- `Window::contains`. -/
def Window.contains (window : Window) (height : U32) : Bool :=
  window.start ≤ height && height < window.stop

namespace Parameters

variable (parameters : Parameters)

/-- `Parameters::validate`. -/
def validate : Except ScheduleError Unit :=
  if parameters.windowBlocks = 0 ∨ parameters.windowBlocks > parameters.commitMaturityBlocks ∨
      parameters.commitMaturityBlocks ≥ parameters.commitTtlBlocks ∨
      parameters.commitTtlBlocks ≥ parameters.epochBlocks ∨
      parameters.leaseBlocks ≤ parameters.epochBlocks ∨
      parameters.cooldownBlocks ≠ parameters.epochBlocks then .error .invalidParameters
  else .ok ()

/-- What `validate` establishes: `0 < window ≤ maturity < TTL < epoch < lease` and a cooldown of one
epoch. -/
structure Valid : Prop where
  window_pos : 0 < parameters.windowBlocks
  window_le : parameters.windowBlocks ≤ parameters.commitMaturityBlocks
  maturity_lt : parameters.commitMaturityBlocks < parameters.commitTtlBlocks
  ttl_lt : parameters.commitTtlBlocks < parameters.epochBlocks
  epoch_lt : parameters.epochBlocks < parameters.leaseBlocks
  cooldown_eq : parameters.cooldownBlocks = parameters.epochBlocks

variable {parameters}

theorem validate_eq_ok_iff : parameters.validate = .ok () ↔ parameters.Valid := by
  rw [validate]
  constructor
  · intro h
    split at h
    · cases h
    · rename_i hnot
      simp only [not_or] at hnot
      obtain ⟨h₁, h₂, h₃, h₄, h₅, h₆⟩ := hnot
      exact ⟨Fin.pos_iff_ne_zero.2 h₁, not_lt.1 h₂, not_le.1 h₃, not_le.1 h₄, not_le.1 h₅,
        not_not.1 h₆⟩
  · rintro ⟨h₁, h₂, h₃, h₄, h₅, h₆⟩
    rw [if_neg]
    simp only [not_or]
    exact ⟨Fin.pos_iff_ne_zero.1 h₁, not_lt.2 h₂, not_le.2 h₃, not_le.2 h₄, not_le.2 h₅,
      not_not.2 h₆⟩

theorem valid_of_validate (h : parameters.validate = .ok ()) : parameters.Valid :=
  validate_eq_ok_iff.1 h

theorem Valid.epoch_pos (h : parameters.Valid) : 0 < parameters.epochBlocks.val := by
  have h₁ := h.ttl_lt
  grind

theorem Valid.cooldown_pos (h : parameters.Valid) : 0 < parameters.cooldownBlocks.val := by
  rw [h.cooldown_eq]
  exact h.epoch_pos

theorem Valid.ttl_pos (h : parameters.Valid) : 0 < parameters.commitTtlBlocks.val := by
  have h₁ := h.maturity_lt
  grind

theorem Valid.maturity_pos (h : parameters.Valid) : 0 < parameters.commitMaturityBlocks.val := by
  have h₁ := h.window_pos
  have h₂ := h.window_le
  grind

variable (parameters)

/-- `Parameters::epoch`. -/
def epoch (height : U32) : Except ScheduleError U32 :=
  if height < parameters.activationHeight then .error .beforeActivation
  else .ok ((height - parameters.activationHeight) / parameters.epochBlocks)

/-- `Parameters::accepts_commit`. -/
def acceptsCommit (commitHeight revealHeight : U32) : Bool :=
  if commitHeight < parameters.activationHeight ∨ revealHeight < commitHeight then false
  else
    let age := revealHeight - commitHeight
    decide (age ≥ parameters.commitMaturityBlocks) && decide (age < parameters.commitTtlBlocks)

/-- `Parameters::expiry`. -/
def expiry (producerHeight : U32) : Except ScheduleError U32 :=
  match U32.checkedAdd producerHeight parameters.leaseBlocks with
  | some height => .ok height
  | none => .error .overflow

/-- `Parameters::claimable`. -/
def claimable (terminalHeight : U32) : Except ScheduleError U32 :=
  match U32.checkedAdd terminalHeight parameters.cooldownBlocks with
  | some height => .ok height
  | none => .error .overflow

section Offsets

variable [Primitives]

/-- `Parameters::offset`: eight little-endian digest bytes, modulo the number of positions a window
can take in an epoch. -/
def offset (nameId : NameId) : U32 :=
  let digest := Primitives.blake2b256 (lit "CoppiceNmOff")
    (parameters.deploymentId.toList ++ nameId.bytes.toList)
  let value := leNat (digest.toList.take 8)
  let span := parameters.epochBlocks - parameters.windowBlocks + 1
  Fin.ofNat _ (value % span.val)

/-- `Parameters::window`. -/
def window (nameId : NameId) (epoch : U32) : Except ScheduleError Window := do
  parameters.validate
  let some epochOffset := U32.checkedMul epoch parameters.epochBlocks | .error .overflow
  let some epochStart := U32.checkedAdd parameters.activationHeight epochOffset
    | .error .overflow
  let some start := U32.checkedAdd epochStart (parameters.offset nameId) | .error .overflow
  let some stop := U32.checkedAdd start parameters.windowBlocks | .error .overflow
  return ⟨start, stop⟩

/-- `Parameters::accepts_operation`. -/
def acceptsOperation (nameId : NameId) (height : U32) : Bool :=
  match parameters.epoch height with
  | .error _ => false
  | .ok epoch =>
    match parameters.window nameId epoch with
    | .error _ => false
    | .ok window => window.contains height

end Offsets

variable {parameters}

theorem epoch_eq_ok_iff {height e : U32} :
    parameters.epoch height = .ok e ↔ parameters.activationHeight ≤ height ∧
      e.val = (height.val - parameters.activationHeight.val) / parameters.epochBlocks.val := by
  rw [epoch]
  split
  · rename_i hlt
    constructor
    · intro h
      cases h
    · rintro ⟨hle, -⟩
      exact absurd hle (not_le.2 hlt)
  · rename_i hle
    have hle' := not_lt.1 hle
    have hval : ((height - parameters.activationHeight) / parameters.epochBlocks).val =
        (height.val - parameters.activationHeight.val) / parameters.epochBlocks.val := by
      rw [Fin.div_val, Fin.sub_val_of_le hle']
    rw [Except.ok.injEq, Fin.ext_iff, hval]
    exact ⟨fun h ↦ ⟨hle', h.symm⟩, fun h ↦ h.2.symm⟩

theorem expiry_eq_ok_iff {height e : U32} :
    parameters.expiry height = .ok e ↔ e.val = height.val + parameters.leaseBlocks.val := by
  rw [expiry, ← U32.checkedAdd_eq_some_iff]
  split <;> simp_all

/-- A REVEAL may use a COMMIT from activation on, mature and not expired. -/
theorem acceptsCommit_iff {commitHeight revealHeight : U32} :
    parameters.acceptsCommit commitHeight revealHeight = true ↔
      parameters.activationHeight ≤ commitHeight ∧ commitHeight ≤ revealHeight ∧
      parameters.commitMaturityBlocks.val ≤ revealHeight.val - commitHeight.val ∧
      revealHeight.val - commitHeight.val < parameters.commitTtlBlocks.val := by
  rw [acceptsCommit]
  split
  · grind
  · rename_i h
    simp only [not_or, not_lt] at h
    have hsub : (revealHeight - commitHeight).val = revealHeight.val - commitHeight.val :=
      Fin.sub_val_of_le h.2
    simp only [ge_iff_le, Bool.and_eq_true, decide_eq_true_eq, Fin.le_def, Fin.lt_def, hsub]
    exact ⟨fun h' ↦ ⟨h.1, h.2, h'⟩, fun h' ↦ h'.2.2⟩

end Parameters

/-! ### A small deployment -/

namespace Sample

/-- The smallest admissible durations, from height zero on. -/
def parameters : Parameters where
  deploymentId := Vector.replicate 32 8
  activationHeight := 0
  epochBlocks := 3
  windowBlocks := 1
  commitMaturityBlocks := 1
  commitTtlBlocks := 2
  leaseBlocks := 4
  cooldownBlocks := 3

theorem parameters_valid : parameters.Valid :=
  Parameters.validate_eq_ok_iff.1 (by decide)

end Sample

end CoppiceNames
