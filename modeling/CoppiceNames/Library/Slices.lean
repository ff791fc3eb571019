import Mathlib

/-!
# Slices at fixed offsets

`l[start..stop]` is a part of `l` when the range lies in it, and there is no such part otherwise. A
format with fixed offsets is read by slices. Its input splits into parts of the widths the format
prescribes (`List.exists_append_of_le_length`), and over such a split a slice is the part between
its offsets (`List.slice?_append`).
-/

namespace List

variable {α : Type}

/-- The elements between two offsets, when both lie in the list. -/
def slice? (l : List α) (start stop : ℕ) : Option (List α) :=
  if start ≤ stop ∧ stop ≤ l.length then some ((l.take stop).drop start) else none

theorem slice?_append {before part after : List α} {start stop : ℕ} (hstart : before.length = start)
    (hstop : start + part.length = stop) : (before ++ (part ++ after)).slice? start
    stop = some part := by
  have hin : start ≤ stop ∧ stop ≤ (before ++ (part ++ after)).length := by
    simp only [length_append]
    omega
  have htake : (before ++ (part ++ after)).take stop = before ++ part := by
    rw [← append_assoc]
    exact take_left' (by rw [length_append, hstart, hstop])
  rw [slice?, if_pos hin, htake, drop_left' hstart]

theorem slice?_append_left {part after : List α} {stop : ℕ} (hstop : part.length = stop) :
    (part ++ after).slice? 0 stop = some part := by
  have hin : 0 ≤ stop ∧ stop ≤ (part ++ after).length := by
    rw [length_append]
    omega
  rw [slice?, if_pos hin, take_left' hstop, drop_zero]

theorem slice?_append_right {before part : List α} {start stop : ℕ} (hstart : before.length = start)
    (hstop : start + part.length = stop) : (before ++ part).slice? start stop = some part := by
  have h : (before ++ (part ++ [])).slice? start stop = some part := slice?_append hstart hstop
  rwa [append_nil] at h

/-- A list that is long enough begins with a part of the prescribed width. -/
theorem exists_append_of_le_length {l : List α} {n : ℕ} (h : n ≤ l.length) :
    ∃ part after, l = part ++ after ∧ part.length = n :=
  ⟨l.take n, l.drop n, (take_append_drop n l).symm, length_take_of_le h⟩

end List
