import ClipEdit.Proofs.Scalar.Whole

/-!
# The frame of a number

A number is turned into a frame by its whole part, and what is no frame is held to the first or the
last one. In exact arithmetic this never falls (`Exact.monotone_toFrame`) and fixes the frames
(`Exact.toFrame_natCast`). For binary64 numbers it is done on the bits, which is exact, too
(`Binary64.toFrame_exact`).
-/

namespace ClipEdit

/-! ### Exact numbers -/

namespace Exact

variable {q : ℚ} {frame : Frame}

theorem toFrame_le_limit (q : ℚ) : Exact.toFrame q ≤ Frame.limit :=
  min_le_right _ _

theorem monotone_toFrame : Monotone Exact.toFrame := by
  intro p q h
  exact min_le_min (Int.toNat_le_toNat (Int.floor_mono h)) le_rfl

/-- A whole number that is a frame is that frame. -/
theorem toFrame_natCast (h : frame ≤ Frame.limit) : Exact.toFrame frame = frame := by
  have h_floor : (frame : ℚ).floor.toNat = frame := by
    change ⌊(frame : ℚ)⌋.toNat = frame
    rw [Int.floor_natCast, Int.toNat_natCast]
  rw [Exact.toFrame, h_floor, min_eq_left h]

/-- Nothing below zero is a frame other than `0`. -/
theorem toFrame_of_nonpos (h : q ≤ 0) : Exact.toFrame q = 0 := by
  have h_zero : Exact.toFrame ((0 : ℕ) : ℚ) = 0 := toFrame_natCast (Nat.zero_le _)
  rw [Nat.cast_zero] at h_zero
  exact Nat.le_zero.mp (h_zero ▸ monotone_toFrame h)

end Exact

/-! ### Binary64 numbers -/

namespace Binary64

open Float.Model Float.Model.UnpackedFloat Scalar

/-- The whole part of a number, taken from its mantissa. -/
theorem roundToInt_eq (s : Sign) (m : Nat) (e : Int) :
    roundToInt s m e = s.apply (⌊size m e⌋.toNat : Int) := by
  cases e with
  | ofNat k =>
    -- zeros are put behind the mantissa, and nothing is shifted out
    have h_size : size m (Int.ofNat k) = ((m * 2 ^ k : Nat) : ℚ) := by
      rw [size, Int.ofNat_eq_natCast, zpow_natCast]
      push_cast
      rfl
    rw [h_size, Int.floor_natCast, Int.toNat_natCast]
    simp only [roundToInt, decreaseExponent, shiftToExponent, Int.ofNat_eq_natCast, sub_zero,
      Int.toNat_natCast, sub_self, Int.toNat_zero, Nat.shiftLeft_eq]
    rfl
  | negSucc k =>
    have h_size : size m (Int.negSucc k) = (m : ℚ) / ((2 ^ (k + 1) : Nat) : ℚ) := by
      rw [size, zpow_negSucc]
      push_cast
      rfl
    have h_part : ((m : ℤ) / ((2 ^ (k + 1) : Nat) : ℤ)).toNat = m / 2 ^ (k + 1) := by
      rw [← Int.natCast_ediv, Int.toNat_natCast]
    rw [h_size, Rat.floor_natCast_div_natCast, h_part]
    -- the exponent is below zero already, and as many bits are shifted out
    have h_keep : decreaseExponent m (Int.negSucc k) 0 = (m, Int.negSucc k) := by
      simp [decreaseExponent]
    have h_bits : (0 - Int.negSucc k).toNat = k + 1 := by omega
    simp only [roundToInt, h_keep, shiftToExponent, h_bits]
    exact congrArg (fun n : Nat => s.apply n) (mantissa_shiftRight ⟨m, false, false⟩ (k + 1))

/-- **The frame of a number is that of its value.** -/
theorem toFrame_exact {x : Float} (hx : x.isFinite = true) :
    toFrame x = Exact.toFrame (value (parts x)) := by
  have h_clamp : ∀ n : Nat, (UInt32.ofNatClamp n).toNat = min n Frame.limit := by
    intro n
    rw [UInt32.ofNatClamp]
    split
    · next h => exact (min_eq_left (Nat.le_of_lt_succ h)).symm
    · next h => exact (min_eq_right ((Nat.le_succ _).trans (not_lt.mp h))).symm
  have h_frame : toFrame x = min (toInt 0 (UInt32.size - 1) (parts x)).toNat Frame.limit :=
    h_clamp _
  rw [h_frame]
  rcases zero_or_finite (u := parts x) hx with ⟨s, h⟩ | ⟨s, m, e, hm, h⟩
  · rw [h, value_zero, Exact.toFrame_of_nonpos le_rfl]
    rfl
  · rw [h, toInt, roundToInt_eq]
    cases s
    · -- below zero there is no frame
      have h_value : value (.finite .negative m e hm) ≤ 0 := neg_nonpos.mpr (size_nonneg m e)
      rw [Exact.toFrame_of_nonpos h_value]
      simp [Sign.apply]
    · rfl

end Binary64

end ClipEdit
