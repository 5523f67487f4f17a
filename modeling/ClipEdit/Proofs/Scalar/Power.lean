import ClipEdit.Proofs.Scalar.Closest

/-!
# Powers of a factor above one

`powerLoop` works through the binary digits of the exponent: a zero squares the base, a one also
multiplies what was collected so far (`powerLoop_even`, `powerLoop_odd`). In binary64 every product
is rounded, and exponents with different digits are computed by different products. So it is not
clear at first sight that one more factor never makes the result smaller.

It does not (`powerLoop_le_succ`). One more than an even exponent multiplies by the base before
anything else, and what is collected is at least that; one more than an odd exponent carries into the
digits behind, where the same question is asked of the square of the base. All that is needed of
rounding is that it keeps the order of products.

A power may be too large for the format, and is an infinity then. `Fits` says that it is not. Of the
exponents that fit, a larger one has the larger power, the negative ones included (`power_mono`); one
that does not fit has no power that could be used as a factor (`power_of_not_fits`).
-/

namespace ClipEdit

open Scalar

/-! ### Digits -/

namespace Scalar

variable {α : Type} [Scalar α]

@[simp] theorem powerLoop_zero (acc base : α) : powerLoop acc base 0 = acc := by
  rw [powerLoop]
  simp

theorem powerLoop_even (acc base : α) (i : Nat) :
    powerLoop acc base (2 * i) = powerLoop acc (base * base) i := by
  rcases Nat.eq_zero_or_pos i with rfl | h_pos
  · simp
  · rw [powerLoop]
    simp only [Nat.mul_mod_right, zero_ne_one, if_false, Nat.mul_div_cancel_left i two_pos]
    rw [if_pos (by omega)]

theorem powerLoop_odd (acc base : α) (i : Nat) :
    powerLoop acc base (2 * i + 1) = powerLoop (acc * base) (base * base) i := by
  have h_digit : (2 * i + 1) % 2 = 1 := by omega
  have h_rest : (2 * i + 1) / 2 = i := by omega
  rw [powerLoop]
  simp only [h_digit, h_rest, if_true]
  rcases Nat.eq_zero_or_pos i with rfl | h_pos
  · simp
  · rw [if_pos (by omega)]

/-- A power of a natural exponent is what is collected. -/
theorem power_natCast (x : α) (n : Nat) : power x n = powerLoop 1.0 x n := by
  unfold power
  dsimp only
  rw [if_neg (by omega), Int.natAbs_natCast]

end Scalar

namespace Binary64

open Float.Model

variable {x acc acc' base base' : Float} {j k : Nat} {m n : Int}

/-! ### Numbers from one on -/

theorem zero_lt_of_one_le (h : 1.0 ≤ x) : 0 < x :=
  Gauge.lt_of_lt_of_le (by decide) h

theorem one_le_value (h : 1.0 ≤ x) : 1 ≤ value (parts x) := by
  have h_le := (le_iff_value_le.mp h).2.2
  rwa [value_one] at h_le

theorem one_le_mul (hx : 1.0 ≤ acc) (hy : 1.0 ≤ base) : 1.0 ≤ acc * base := by
  have h_one : (1.0 : Float) * 1.0 = 1.0 := by decide +kernel
  have h_le := mul_mono (by decide) hx (by decide) hy
  rwa [h_one] at h_le

/-- Multiplying by one rounds nothing. -/
theorem le_one_mul (h : 1.0 ≤ x) : x ≤ 1.0 * x := by
  have h_one : 0 < value (parts (1.0 : Float)) := by
    rw [value_one]
    exact one_pos
  have hx := one_pos.trans_le (one_le_value h)
  refine le_iff_value_le.mpr ⟨(le_iff_value_le.mp h).2.1, isNumber_mul h_one hx, ?_⟩
  by_cases h_fin : x.isFinite = true
  · refine (rounded_mul (by decide) h_fin).le_value (inFormat_parts x) ?_
    rw [value_one, one_mul]
  · rw [parts_mul_of_infinite h_one hx (by simp [h_fin])]
    exact (abs_le.mp (abs_value_le (inFormat_parts x))).2

/-! ### What is collected -/

/-- The result grows with the base and with what was collected before. -/
theorem powerLoop_mono (h_acc : 1.0 ≤ acc) (h_acc' : acc ≤ acc') (h_base : 1.0 ≤ base)
    (h_base' : base ≤ base') (n : Nat) : powerLoop acc base n ≤ powerLoop acc' base' n := by
  induction n using Nat.strong_induction_on generalizing acc acc' base base' with
  | _ n ih =>
    -- the square of the base is at least one again, and it grows with the base
    have h_pos := zero_lt_of_one_le h_base
    have h_square := mul_mono h_pos h_base' h_pos h_base'
    have h_one := one_le_mul h_base h_base
    rcases Nat.even_or_odd' n with ⟨i, rfl | rfl⟩
    · rw [powerLoop_even, powerLoop_even]
      rcases Nat.eq_zero_or_pos i with rfl | h_i
      · simpa using h_acc'
      · exact ih i (by omega) h_acc h_acc' h_one h_square
    · rw [powerLoop_odd, powerLoop_odd]
      exact ih i (by omega) (one_le_mul h_acc h_base)
        (mul_mono (zero_lt_of_one_le h_acc) h_acc' h_pos h_base') h_one h_square

/-- **One more factor does not make the result smaller**, whatever was collected before in place of
that factor, as long as it is not more than the base. -/
theorem powerLoop_le_succ (h_acc : 1.0 ≤ acc) (h_le : acc ≤ base) (n : Nat) :
    powerLoop acc base n ≤ powerLoop 1.0 base (n + 1) := by
  induction n using Nat.strong_induction_on generalizing acc base with
  | _ n ih =>
    have h_base := Gauge.le_trans h_acc h_le
    have h_one := one_le_mul h_base h_base
    have h_self := Gauge.le_refl (Gauge.le_iff.mp h_base).2.1
    rcases Nat.even_or_odd' n with ⟨i, rfl | rfl⟩
    · -- the factor is multiplied first, and the other digits are the same
      rw [powerLoop_even, powerLoop_odd]
      exact powerLoop_mono h_acc (Gauge.le_trans h_le (le_one_mul h_base)) h_one
        (Gauge.le_refl (Gauge.le_iff.mp h_one).2.1) i
    · -- the factor carries: what was collected is now compared with the square of the base
      have h_carry : 2 * i + 1 + 1 = 2 * (i + 1) := by ring
      rw [powerLoop_odd, h_carry, powerLoop_even]
      exact ih i (by omega) (one_le_mul h_acc h_base)
        (mul_mono (zero_lt_of_one_le h_acc) h_le (zero_lt_of_one_le h_base) h_self)

/-- **Powers grow with the exponent.** -/
theorem powerLoop_le (h_base : 1.0 ≤ base) (h : j ≤ k) :
    powerLoop 1.0 base j ≤ powerLoop 1.0 base k := by
  have h_one : (1.0 : Float) ≤ 1.0 := by decide
  induction k, h using Nat.le_induction with
  | base =>
    exact powerLoop_mono h_one h_one h_base (Gauge.le_refl (Gauge.le_iff.mp h_base).2.1) j
  | succ k _ ih => exact Gauge.le_trans ih (powerLoop_le_succ h_one h_base k)

theorem one_le_powerLoop (h_base : 1.0 ≤ base) (n : Nat) : 1.0 ≤ powerLoop 1.0 base n := by
  have h_le := powerLoop_le h_base (Nat.zero_le n)
  rwa [powerLoop_zero] at h_le

/-! ### Whole powers -/

/-- **The power fits**: as many factors as the exponent says, with or without its sign, make a finite
number. -/
def Fits (x : Float) (n : Int) : Prop := isFinite (power x n.natAbs) = true

instance (x : Float) (n : Int) : Decidable (Fits x n) := inferInstanceAs (Decidable (_ = _))

theorem fits_iff : Fits x n ↔ (powerLoop 1.0 x n.natAbs).isFinite = true := by
  unfold Fits
  rw [power_natCast]
  rfl

/-- Fewer factors fit, too. -/
theorem Fits.of_le (h : Fits x n) (hx : 1.0 ≤ x) (h_le : m.natAbs ≤ n.natAbs) : Fits x m := by
  rw [fits_iff] at h ⊢
  have h_pos := one_pos.trans_le (one_le_value (one_le_powerLoop hx m.natAbs))
  exact isFinite_of_value_le h_pos (le_iff_value_le.mp (powerLoop_le hx h_le)).2.2 h

/-- The reciprocal of a finite number from one on is not zero: `2^-1024` is a number of the format. -/
theorem one_div_mem (hx : 1.0 ≤ x) (h_fin : x.isFinite = true) :
    (1.0 / x).isFinite = true ∧ 0 < 1.0 / x ∧ 1.0 / x ≤ 1.0 := by
  have h_one := one_le_value hx
  have h_limit := ((isFinite_iff (inFormat_parts x)).mp h_fin).2
  rw [abs_of_pos (by linarith)] at h_limit
  have h_rounded := rounded_div (x := 1.0) (by decide) h_fin (by linarith)
  rw [value_one] at h_rounded
  -- the quotient is at most one, and rounding does not cross that either
  have h_le : value (parts (1.0 / x)) ≤ 1 := by
    have h_quotient : 1 / value (parts x) ≤ value (parts (1.0 : Float)) := by
      rw [value_one]
      exact div_le_one_of_le₀ h_one (by linarith)
    exact (h_rounded.value_le (inFormat_parts 1.0) h_quotient).trans_eq value_one
  have h_least : size (2 ^ 50) (-1074) * limit = 1 := by
    rw [limit, size_mul_size]
    norm_num [size]
  -- the quotient is at least `2^-1024`, and rounding does not cross that
  have h_pos : 0 < value (parts (1.0 / x)) := by
    refine (size_pos (m := 2 ^ 50) (by norm_num) (-1074)).trans_le ?_
    refine h_rounded.le_value (z := .finite .positive (2 ^ 50) (-1074) (by norm_num))
      ⟨⟨by norm_num, le_rfl, Or.inr rfl⟩, by norm_num⟩ ?_
    change size (2 ^ 50) (-1074) ≤ 1 / value (parts x)
    rw [le_div_iff₀ (by linarith), ← h_least]
    exact mul_le_mul_of_nonneg_left h_limit.le (size_nonneg _ _)
  have h_number := h_rounded.isNumber
  refine ⟨isFinite_of_value_le h_pos (h_le.trans_eq value_one.symm) (by decide),
    lt_iff_value_lt.mpr ⟨Gauge.isNumber_zero (α := Float), h_number, h_pos⟩,
    le_iff_value_le.mpr ⟨h_number, (le_iff_value_le.mp hx).1, h_le.trans_eq value_one.symm⟩⟩

/-- **A power that fits is a factor**: finite and positive. -/
theorem Fits.power_mem (h : Fits x n) (hx : 1.0 ≤ x) :
    isFinite (power x n) = true ∧ 0 < power x n := by
  rw [fits_iff] at h
  have h_one := one_le_powerLoop hx n.natAbs
  unfold power
  dsimp only
  split
  · obtain ⟨h_fin, h_pos, -⟩ := one_div_mem h_one h
    exact ⟨h_fin, h_pos⟩
  · exact ⟨h, zero_lt_of_one_le h_one⟩

/-- **A power that does not fit is none**: it is an infinity, or zero if the exponent is negative. -/
theorem power_of_not_fits (h : ¬ Fits x n) (hx : 1.0 ≤ x) :
    (!isFinite (power x n) || power x n ≤ 0) = true := by
  rw [fits_iff] at h
  have h_one := one_le_powerLoop hx n.natAbs
  have h_parts : parts (powerLoop 1.0 x n.natAbs) = .infinity .positive := by
    rcases infinity_or_finite_of_pos (one_pos.trans_le (one_le_value h_one)) with h_eq | h_some
    · exact h_eq
    · obtain ⟨m, e, hm, h_eq⟩ := h_some
      exact absurd (show (parts _).isFinite = true by rw [h_eq]; rfl) h
  unfold power
  dsimp only
  split
  · -- one divided by the infinity is zero
    have h_zero : (1.0 : Float) / powerLoop 1.0 x n.natAbs = 0 := by
      change Float.ofModel (Float.Model.pack (UnpackedFloat.div Format.binary64 _ (parts _))) = 0
      rw [h_parts]
      decide +kernel
    rw [h_zero]
    decide
  · have h_infinite : isFinite (powerLoop 1.0 x n.natAbs) = false := by
      rw [Bool.eq_false_iff]
      exact h
    rw [h_infinite]
    rfl

/-- **Powers grow with the exponent**, from the first reciprocal on that fits. -/
theorem power_mono (hx : 1.0 ≤ x) (hm : Fits x m) (h : m ≤ n) : power x m ≤ power x n := by
  rw [fits_iff] at hm
  have h_m := one_le_powerLoop hx m.natAbs
  have h_n := one_le_powerLoop hx n.natAbs
  unfold power
  dsimp only
  split
  · split
    · exact one_div_anti (zero_lt_of_one_le h_n) (powerLoop_le hx (by omega)) hm
    · exact Gauge.le_trans (one_div_mem h_m hm).2.2 h_n
  · rw [if_neg (by omega)]
    exact powerLoop_le hx (by omega)

end Binary64

end ClipEdit
