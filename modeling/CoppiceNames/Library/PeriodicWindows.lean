import Mathlib

/-!
# Periodic windows

Time is a natural number. From an origin on it is cut into periods of equal length, and each period
holds one window of a fixed width at a fixed offset. Nothing here overflows.

A window stays inside its period (`fits`), so a time in a window is in the period of that window
(`Covers.index_eq`), windows of different periods do not meet (`stop_le_start`), and the windows
repeat (`covers_add_period`).
-/

/-- One window in every period. -/
structure PeriodicWindows where
  origin : ℕ
  period : ℕ
  offset : ℕ
  width : ℕ
  /-- A window has room for a time. -/
  width_pos : 0 < width
  /-- A window does not spill into the next period. -/
  fits : offset + width ≤ period

namespace PeriodicWindows

variable (windows : PeriodicWindows)

/-- The first time of the window of a period. -/
def start (index : ℕ) : ℕ :=
  windows.origin + index * windows.period + windows.offset

/-- The first time after the window of a period. -/
def stop (index : ℕ) : ℕ :=
  windows.start index + windows.width

/-- The period a time is in. -/
def index (time : ℕ) : ℕ :=
  (time - windows.origin) / windows.period

/-- A time is in the window of a period. -/
def Covers (index time : ℕ) : Prop :=
  windows.start index ≤ time ∧ time < windows.stop index

instance (index time : ℕ) : Decidable (windows.Covers index time) :=
  inferInstanceAs (Decidable (_ ∧ _))

variable {windows}

theorem period_pos (windows : PeriodicWindows) : 0 < windows.period := by
  have hwidth := windows.width_pos
  have hfits := windows.fits
  omega

/-- A window ends before the window of any later period begins. -/
theorem stop_le_start {first second : ℕ} (h : first < second) :
    windows.stop first ≤ windows.start second := by
  have hfits := windows.fits
  have hperiods : (first + 1) * windows.period ≤ second * windows.period :=
    Nat.mul_le_mul_right _ h
  rw [Nat.add_mul, one_mul] at hperiods
  rw [stop, start, start]
  omega

theorem stop_mono {first second : ℕ} (h : first ≤ second) :
    windows.stop first ≤ windows.stop second := by
  have hperiods : first * windows.period ≤ second * windows.period := Nat.mul_le_mul_right _ h
  rw [stop, stop, start, start]
  omega

namespace Covers

variable {index time : ℕ}

theorem origin_le (h : windows.Covers index time) : windows.origin ≤ time := by
  have hstart := h.1
  rw [start] at hstart
  omega

/-- A time in a window is in the period of that window. -/
theorem index_eq (h : windows.Covers index time) : windows.index time = index := by
  obtain ⟨hstart, hstop⟩ := h
  have hfits := windows.fits
  rw [stop] at hstop
  rw [start] at hstart hstop
  have hperiod := windows.period_pos
  rw [PeriodicWindows.index, Nat.div_eq_iff hperiod]
  omega

end Covers

/-- The windows repeat with every period. -/
theorem covers_add_period {index time : ℕ} :
    windows.Covers (index + 1) (time + windows.period) ↔ windows.Covers index time := by
  rw [Covers, Covers, stop, stop, start, start, Nat.add_mul, one_mul]
  omega

end PeriodicWindows
