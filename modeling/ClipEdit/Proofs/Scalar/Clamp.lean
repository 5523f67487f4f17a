import ClipEdit.Proofs.Scalar.Gauge

/-!
# Clamping numbers

A number that is moved into a range by `clamp` is there afterwards, provided that the range is one;
a number that was there already is left as it is, to the last bit. Everything follows from the value
of what comes out (`isNumber_clamp`), which does not look at how numbers are rounded, because nothing
is.
-/

namespace ClipEdit.Scalar.Gauge

open Scalar

variable {α : Type} [Scalar α] [Gauge α] {x y lo hi : α}

/-- **What a clamp comes to.** The upper end wins where the lower one is above it. -/
theorem isNumber_clamp (hx : IsNumber x) (h_lo : IsNumber lo) (h_hi : IsNumber hi) :
    IsNumber (clamp x lo hi) ∧
      value (clamp x lo hi) = min (max (value x) (value lo)) (value hi) := by
  -- first the lower end, then the upper one, as the program goes
  have h_raised : IsNumber (if x < lo then lo else x) ∧
      value (if x < lo then lo else x) = max (value x) (value lo) := by
    split
    · next h => exact ⟨h_lo, (max_eq_right (value_lt_of_lt h).le).symm⟩
    · next h =>
      exact ⟨hx, (max_eq_left (value_le_of_le ((Gauge.not_lt hx h_lo).mp h))).symm⟩
  have h_lowered : ∀ raised : α, IsNumber raised → IsNumber (if hi < raised then hi else raised) ∧
      value (if hi < raised then hi else raised) = min (value raised) (value hi) := by
    intro raised h_number
    split
    · next h => exact ⟨h_hi, (min_eq_right (value_lt_of_lt h).le).symm⟩
    · next h =>
      have h_le := value_le_of_le ((Gauge.not_lt h_hi h_number).mp h)
      exact ⟨h_number, (min_eq_left h_le).symm⟩
  rw [← h_raised.2]
  exact h_lowered _ h_raised.1

/-- A clamped number is in the range. -/
theorem clamp_mem (hx : IsNumber x) (h_range : lo ≤ hi) :
    lo ≤ clamp x lo hi ∧ clamp x lo hi ≤ hi := by
  obtain ⟨h_lo, h_hi, h_le⟩ := le_iff.mp h_range
  obtain ⟨h_number, h_value⟩ := isNumber_clamp hx h_lo h_hi
  refine ⟨le_iff.mpr ⟨h_lo, h_number, ?_⟩, le_iff.mpr ⟨h_number, h_hi, ?_⟩⟩ <;> rw [h_value]
  · exact le_min (le_max_right _ _) h_le
  · exact min_le_right _ _

/-- What is in the range stays what it is. -/
theorem clamp_eq_self (h_lo : lo ≤ x) (h_hi : x ≤ hi) : clamp x lo hi = x := by
  obtain ⟨h_lo', hx, -⟩ := le_iff.mp h_lo
  obtain ⟨-, h_hi', -⟩ := le_iff.mp h_hi
  unfold clamp
  dsimp only
  rw [if_neg ((Gauge.not_lt hx h_lo').mpr h_lo), if_neg ((Gauge.not_lt h_hi' hx).mpr h_hi)]

/-- Clamping keeps the order. -/
theorem clamp_mono (h_le : x ≤ y) (h_lo : IsNumber lo) (h_hi : IsNumber hi) :
    clamp x lo hi ≤ clamp y lo hi := by
  obtain ⟨hx, hy, h_value⟩ := le_iff.mp h_le
  obtain ⟨h_number, h_x⟩ := isNumber_clamp hx h_lo h_hi
  obtain ⟨h_number', h_y⟩ := isNumber_clamp hy h_lo h_hi
  refine le_iff.mpr ⟨h_number, h_number', ?_⟩
  rw [h_x, h_y]
  exact min_le_min_right _ (max_le_max_right _ h_value)

omit [Gauge α] in
/-- The larger of two finite scalars is one of the two. -/
theorem isFinite_atLeast (hx : isFinite x = true) (h_lo : isFinite lo = true) :
    isFinite (atLeast x lo) = true := by
  unfold atLeast
  split
  · exact h_lo
  · split
    · exact hx
    · exact h_lo

end ClipEdit.Scalar.Gauge
