import ClipEdit.Proofs.Scalar.Closest
import ClipEdit.Proofs.Scalar.Frame

/-!
# What is no number

A comparison with what is no number is false, whichever way it is asked. So a guard that rejects what
is too far lets it pass, and a search that keeps the nearer of two things cannot weigh it. Where it
comes from and where it goes is said here for binary64: it spoils differences and products
(`isNumber_of_sub`, `not_isNumber_mul`), it has no distance from anything, and as a frame it is the
first one (`toFrame_of_not_isNumber`). An infinity is a number: it stays what it is when something
finite is taken away from it (`parts_sub_of_infinite`), and as a frame it is the last one there can
be.
-/

namespace ClipEdit.Binary64

open Float.Model Float.Model.UnpackedFloat Scalar Gauge

variable {x y y' : Float}

theorem isNaN_iff : x.isNaN = true ↔ ¬ IsNumber x := by
  change (parts x).isNaN = true ↔ ¬ parts x ≠ .notANumber
  cases parts x <;> simp [UnpackedFloat.isNaN]

theorem isNaN_eq_false_iff : x.isNaN = false ↔ IsNumber x := by
  rw [Bool.eq_false_iff, Ne, isNaN_iff, not_not]

theorem parts_of_not_isNumber (h : ¬ IsNumber x) : parts x = .notANumber :=
  not_not.mp h

/-- What is stored as no number is read as none. -/
theorem unpack_pack_notANumber : (Float.Model.pack .notANumber).unpack = .notANumber := rfl

/-- **A difference is a number of two numbers only.** -/
theorem isNumber_of_sub (h : IsNumber (x - y)) : IsNumber x ∧ IsNumber y := by
  change (Float.Model.pack (UnpackedFloat.sub Format.binary64 (parts x) (parts y))).unpack ≠
    .notANumber at h
  constructor
  · intro h_x
    rw [h_x] at h
    exact h (by cases parts y <;> exact unpack_pack_notANumber)
  · intro h_y
    rw [h_y] at h
    exact h (by cases parts x <;> exact unpack_pack_notANumber)

/-- A product with what is no number is none. -/
theorem not_isNumber_mul (h : ¬ IsNumber x ∨ ¬ IsNumber y) : ¬ IsNumber (x * y) := by
  intro h_mul
  change (Float.Model.pack (UnpackedFloat.mul Format.binary64 (parts x) (parts y))).unpack ≠
    .notANumber at h_mul
  rcases h with h_x | h_y
  · rw [parts_of_not_isNumber h_x] at h_mul
    exact h_mul (by cases parts y <;> exact unpack_pack_notANumber)
  · rw [parts_of_not_isNumber h_y] at h_mul
    exact h_mul (by cases parts x <;> exact unpack_pack_notANumber)

theorem isNumber_of_magnitude (h : IsNumber (magnitude x)) : IsNumber x := by
  intro h_x
  change parts x.abs ≠ .notANumber at h
  rw [parts_abs, h_x] at h
  exact h rfl

/-- An infinity less a finite number is the same infinity. -/
theorem parts_sub_of_infinite (hx : IsNumber x) (hx' : ¬ x.isFinite = true)
    (hy : y.isFinite = true) : parts (x - y) = parts x := by
  change (Float.Model.pack (UnpackedFloat.sub Format.binary64 (parts x) (parts y))).unpack = _
  obtain ⟨s, h_s⟩ := eq_infinity_of_not_isFinite hx hx'
  have h_infinity : (Float.Model.pack (.infinity s)).unpack = .infinity s := by
    cases s <;> rfl
  rw [h_s]
  rcases zero_or_finite (u := parts y) hy with ⟨t, h_t⟩ | ⟨t, n, f, hn, h_t⟩
  · rw [h_t]
    exact h_infinity
  · rw [h_t]
    exact h_infinity

/-- **What is no number is the first frame.** -/
theorem toFrame_of_not_isNumber (h : ¬ IsNumber x) : toFrame x = 0 := by
  have h_int : toInt 0 (UInt32.size - 1) (parts x) = 0 := by
    rw [parts_of_not_isNumber h]
    rfl
  change (UInt32.ofNatClamp (toInt 0 (UInt32.size - 1) (parts x)).toNat).toNat = 0
  rw [h_int]
  rfl

/-- The infinity is the last frame there can be. -/
theorem toFrame_of_infinity (h : parts x = .infinity .positive) : toFrame x = Frame.limit := by
  have h_int : toInt 0 (UInt32.size - 1) (parts x) = UInt32.size - 1 := by
    rw [h]
    rfl
  change (UInt32.ofNatClamp (toInt 0 (UInt32.size - 1) (parts x)).toNat).toNat = Frame.limit
  rw [h_int]
  decide

/-- Differences from numbers of one value have one value. -/
theorem value_sub_congr (hx : x.isFinite = true) (hy : y.isFinite = true) (hy' : y'.isFinite = true)
    (h_nonneg : 0 ≤ value (parts y)) (h : value (parts y) = value (parts y')) :
    value (parts (x - y)) = value (parts (x - y')) := by
  rcases h_nonneg.eq_or_lt with h_zero | h_pos
  · -- taking a zero away, with either sign, rounds nothing
    have h_self := rounded_sub hx hy
    have h_self' := rounded_sub hx hy'
    rw [← h, ← h_zero, sub_zero] at h_self'
    rw [← h_zero, sub_zero] at h_self
    rw [h_self.eq_value (inFormat_parts x) rfl, h_self'.eq_value (inFormat_parts x) rfl]
  · have h_parts := eq_of_value_eq (inFormat_parts y) (inFormat_parts y') h_pos h
    rw [sub_congr rfl h_parts]

end ClipEdit.Binary64
