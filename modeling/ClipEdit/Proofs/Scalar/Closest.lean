import ClipEdit.Proofs.Scalar.Gauge
import ClipEdit.Proofs.Scalar.Operations

/-!
# Rounding keeps the order

That rounding does not cross a number leaves one thing open: two quantities between the same two
neighbours could be rounded apart, the smaller one up and the larger one down. They are not, because
each is rounded to the nearer of the two (`Closest.value_le`).

So products of positive numbers grow with both factors (`mul_mono`), and a reciprocal falls as the
number grows (`one_div_anti`), also where the results are too large for the format or lose
their bits. An infinity is a factor like any other here: worth `2^1024`, it is as near as any number
to a product that is even larger.
-/

namespace ClipEdit.Binary64

open Float.Model Float.Model.UnpackedFloat Scalar

/-- **A stored number is closest to a quantity** when no number of the format is closer. -/
def Closest (q : ℚ) (x : Float) : Prop :=
  ∀ z, InFormat z → |value (parts x) - q| ≤ |value z - q|

/-- **Closest numbers keep the order.** A larger number that is closest to the smaller quantity has
the middle of the two numbers below that quantity, and above the other one. -/
theorem Closest.value_le {q p : ℚ} {x y : Float} (hx : Closest q x) (hy : Closest p y) (h : q < p) :
    value (parts x) ≤ value (parts y) := by
  have h_q := hx (parts y) (inFormat_parts y)
  have h_p := hy (parts x) (inFormat_parts x)
  by_contra h_not
  rw [not_le] at h_not
  have h_middle_le : value (parts x) + value (parts y) ≤ 2 * q := by
    have h_above := (le_abs_self (value (parts x) - q)).trans h_q
    rcases abs_cases (value (parts y) - q) with ⟨h_abs, -⟩ | ⟨h_abs, -⟩ <;> linarith
  have h_le_middle : 2 * p ≤ value (parts x) + value (parts y) := by
    have h_below := (neg_le_abs (value (parts y) - p)).trans h_p
    rcases abs_cases (value (parts x) - p) with ⟨h_abs, -⟩ | ⟨h_abs, -⟩ <;> linarith
  linarith

/-! ### Positive numbers -/

section Positive

variable {u v : UnpackedFloat}

/-- A number above zero is the infinity or has a mantissa. -/
theorem infinity_or_finite_of_pos (h : 0 < value u) :
    u = .infinity .positive ∨ ∃ m e hm, u = .finite .positive m e hm := by
  have h_limit := limit_pos
  cases u with
  | notANumber => exact absurd h (lt_irrefl 0)
  | infinity s =>
    cases s
    · exact absurd h (by simpa [value] using h_limit.le)
    · exact Or.inl rfl
  | zero s => exact absurd h (lt_irrefl 0)
  | finite s m e hm =>
    cases s
    · exact absurd h (by simpa [value] using size_nonneg m e)
    · exact Or.inr ⟨m, e, hm, rfl⟩

/-- Positive numbers are told apart by their values. -/
theorem eq_of_value_eq (hu : InFormat u) (hv : InFormat v) (h_pos : 0 < value u)
    (h : value u = value v) : u = v := by
  rcases infinity_or_finite_of_pos h_pos with rfl | ⟨m, e, hm, rfl⟩ <;>
    rcases infinity_or_finite_of_pos (h ▸ h_pos) with rfl | ⟨n, f, hn, rfl⟩
  · rfl
  · exact absurd h (size_lt_limit hv.1 hv.2).ne'
  · exact absurd h (size_lt_limit hu.1 hu.2).ne
  · have h_compare := GridPoint.compare_eq hu.1 hv.1
    rw [compare_eq_iff_eq.mpr (show size m e = size n f from h), Ordering.then_eq_eq,
      compare_eq_iff_eq, compare_eq_iff_eq] at h_compare
    obtain ⟨rfl, rfl⟩ := h_compare
    rfl

/-- A grid point up to the infinity is as close to a positive quantity as any number of the format. -/
theorem exists_gridPoint_closer {q : ℚ} (hq : 0 < q) (hu : InFormat u) :
    ∃ n f, GridPoint n f ∧ size n f ≤ limit ∧ |size n f - q| ≤ |value u - q| := by
  rcases le_or_gt (value u) 0 with h_nonpos | h_pos
  · -- zero is closer than everything below it
    refine ⟨0, -1074, ⟨by norm_num, le_rfl, Or.inr rfl⟩, ?_, ?_⟩
    · simpa [size] using limit_pos.le
    · rw [abs_of_nonpos (by linarith : value u - q ≤ 0)]
      simpa [size, abs_of_pos hq] using h_nonpos
  · rcases infinity_or_finite_of_pos h_pos with rfl | ⟨m, e, hm, rfl⟩
    · exact ⟨2 ^ 52, 972, ⟨by norm_num, by norm_num, Or.inl le_rfl⟩, le_rfl, le_rfl⟩
    · exact ⟨m, e, hu.1, (size_lt_limit hu.1 hu.2).le, le_rfl⟩

end Positive

/-- What is rounded to the nearest grid point is closest, also when it is cut off. -/
theorem closest_of_nearest {q : ℚ} {n : Nat} {f : Int} (hq : 0 < q) (h : RoundsTo q n f)
    (h_near : Nearest q (size n f)) :
    Closest q (Float.ofModel (Float.Model.pack (signed .positive n f))) := by
  intro z hz
  have h_value : value (parts (Float.ofModel (Float.Model.pack (signed .positive n f))))
      = min (size n f) limit := by
    rw [← value_cutOff_signed h.gridPoint]
    exact congrArg value (unpack_pack (onGrid_signed h.gridPoint))
  obtain ⟨a, e, h_grid, h_le, h_closer⟩ := exists_gridPoint_closer hq hz
  refine le_trans ?_ h_closer
  rw [h_value]
  rcases le_or_gt (size n f) limit with h_in | h_out
  · rw [min_eq_left h_in]
    exact h_near a e h_grid
  · -- the quantity is past the infinity, and so the infinity is as close as can be
    have h_limit : limit < q := by
      by_contra h_not
      exact h_out.not_ge (h.size_le (show GridPoint (2 ^ 52) 972 from
        ⟨by norm_num, by norm_num, Or.inl le_rfl⟩) (not_lt.mp h_not))
    rw [min_eq_right h_out.le, abs_of_neg (by linarith), abs_of_neg (by linarith)]
    linarith

section Stored

variable {x x' y y' : Float}

/-! ### Results of operations -/

theorem sub_eq_pack (x y : Float) : x - y = Float.ofModel
    (Float.Model.pack (UnpackedFloat.sub Format.binary64 (parts x) (parts y))) := rfl

theorem mul_eq_pack (x y : Float) : x * y = Float.ofModel
    (Float.Model.pack (UnpackedFloat.mul Format.binary64 (parts x) (parts y))) := rfl

theorem div_eq_pack (x y : Float) : x / y = Float.ofModel
    (Float.Model.pack (UnpackedFloat.div Format.binary64 (parts x) (parts y))) := rfl

/-- Numbers with the same parts have the same difference, and so on: operations look at nothing
else. -/
theorem sub_congr (h : parts x = parts x') (h' : parts y = parts y') : x - y = x' - y' := by
  rw [sub_eq_pack, sub_eq_pack, h, h']

theorem mul_congr (h : parts x = parts x') (h' : parts y = parts y') : x * y = x' * y' := by
  rw [mul_eq_pack, mul_eq_pack, h, h']

theorem div_congr (h : parts x = parts x') (h' : parts y = parts y') : x / y = x' / y' := by
  rw [div_eq_pack, div_eq_pack, h, h']

theorem closest_mul (hx : x.isFinite = true) (hy : y.isFinite = true) (hx' : 0 < value (parts x))
    (hy' : 0 < value (parts y)) : Closest (value (parts x) * value (parts y)) (x * y) := by
  have h_x := inFormat_parts x
  have h_y := inFormat_parts y
  rw [mul_eq_pack]
  change (parts x).isFinite = true at hx
  change (parts y).isFinite = true at hy
  -- from here on it is about two numbers with mantissas, wherever they are stored
  generalize parts x = u at *
  generalize parts y = v at *
  rcases infinity_or_finite_of_pos hx' with rfl | ⟨m, e, hm, rfl⟩
  · exact absurd hx (by decide)
  rcases infinity_or_finite_of_pos hy' with rfl | ⟨n, f, hn, rfl⟩
  · exact absurd hy (by decide)
  obtain ⟨a, g, h_rounds, h_near, h_eq⟩ := exists_roundMul hm hn h_x.1 h_y.1
  rw [h_eq]
  exact closest_of_nearest (mul_pos (size_pos hm e) (size_pos hn f)) h_rounds h_near

theorem closest_div (hx : x.isFinite = true) (hy : y.isFinite = true) (hx' : 0 < value (parts x))
    (hy' : 0 < value (parts y)) : Closest (value (parts x) / value (parts y)) (x / y) := by
  rw [div_eq_pack]
  change (parts x).isFinite = true at hx
  change (parts y).isFinite = true at hy
  generalize parts x = u at *
  generalize parts y = v at *
  rcases infinity_or_finite_of_pos hx' with rfl | ⟨m, e, hm, rfl⟩
  · exact absurd hx (by decide)
  rcases infinity_or_finite_of_pos hy' with rfl | ⟨n, f, hn, rfl⟩
  · exact absurd hy (by decide)
  obtain ⟨a, g, h_rounds, h_near, h_eq⟩ := exists_roundDiv hm hn e f
  rw [h_eq]
  exact closest_of_nearest (div_pos (size_pos hm e) (size_pos hn f)) h_rounds h_near

/-! ### The order of results -/

/-- A product of positive numbers is infinite if one of them is. -/
theorem parts_mul_of_infinite (hx : 0 < value (parts x)) (hy : 0 < value (parts y))
    (h : ¬ (x.isFinite = true ∧ y.isFinite = true)) : parts (x * y) = .infinity .positive := by
  change ¬ ((parts x).isFinite = true ∧ (parts y).isFinite = true) at h
  change (Float.Model.pack (UnpackedFloat.mul Format.binary64 (parts x) (parts y))).unpack = _
  generalize parts x = u at *
  generalize parts y = v at *
  have h_infinity : (Float.Model.pack (.infinity .positive)).unpack = .infinity .positive := rfl
  rcases infinity_or_finite_of_pos hx with rfl | ⟨m, e, hm, rfl⟩ <;>
    rcases infinity_or_finite_of_pos hy with rfl | ⟨n, f, hn, rfl⟩
  · exact h_infinity
  · exact h_infinity
  · exact h_infinity
  · exact absurd ⟨rfl, rfl⟩ h

theorem isNumber_mul (hx : 0 < value (parts x)) (hy : 0 < value (parts y)) :
    parts (x * y) ≠ .notANumber := by
  by_cases h : x.isFinite = true ∧ y.isFinite = true
  · exact (rounded_mul h.1 h.2).isNumber
  · rw [parts_mul_of_infinite hx hy h]
    simp

/-- What is between zero and a finite number is finite. -/
theorem isFinite_of_value_le (hx : 0 < value (parts x)) (h : value (parts x) ≤ value (parts x'))
    (hx' : x'.isFinite = true) : x.isFinite = true := by
  have h_below := ((isFinite_iff (inFormat_parts x')).mp hx').2
  refine (isFinite_iff (inFormat_parts x)).mpr ⟨fun h_nan => ?_, ?_⟩
  · rw [h_nan] at hx
    exact lt_irrefl _ hx
  · rw [abs_of_pos hx]
    exact (h.trans (le_abs_self _)).trans_lt h_below

/-- **Products grow with their factors.** -/
theorem mul_mono (hx : 0 < x) (h : x ≤ x') (hy : 0 < y) (h' : y ≤ y') : x * y ≤ x' * y' := by
  have h_zero : value (parts (0 : Float)) = 0 := value_zero .positive
  have hx := (lt_iff_value_lt.mp hx).2.2
  have hy := (lt_iff_value_lt.mp hy).2.2
  rw [h_zero] at hx hy
  obtain ⟨-, -, h⟩ := le_iff_value_le.mp h
  obtain ⟨-, -, h'⟩ := le_iff_value_le.mp h'
  have hx' := hx.trans_le h
  have hy' := hy.trans_le h'
  refine le_iff_value_le.mpr ⟨isNumber_mul hx hy, isNumber_mul hx' hy', ?_⟩
  by_cases h_fin : x'.isFinite = true ∧ y'.isFinite = true
  · have hx_fin := isFinite_of_value_le hx h h_fin.1
    have hy_fin := isFinite_of_value_le hy h' h_fin.2
    have h_product : value (parts x) * value (parts y) < value (parts x') * value (parts y') ∨
        value (parts x) = value (parts x') ∧ value (parts y) = value (parts y') := by
      rcases h.lt_or_eq with h_lt | h_eq
      · exact Or.inl (mul_lt_mul h_lt h' hy hx'.le)
      · rcases h'.lt_or_eq with h_lt' | h_eq'
        · exact Or.inl (mul_lt_mul' h h_lt' hy.le hx')
        · exact Or.inr ⟨h_eq, h_eq'⟩
    rcases h_product with h_lt | ⟨h_eq, h_eq'⟩
    · exact (closest_mul hx_fin hy_fin hx hy).value_le
        (closest_mul h_fin.1 h_fin.2 hx' hy') h_lt
    · -- equal factors have equal products, however those are rounded
      have h_parts := eq_of_value_eq (inFormat_parts x) (inFormat_parts x') hx h_eq
      have h_parts' := eq_of_value_eq (inFormat_parts y) (inFormat_parts y') hy h_eq'
      rw [mul_congr h_parts h_parts']
  · -- nothing is larger than the infinity
    rw [parts_mul_of_infinite hx' hy' h_fin]
    exact (abs_le.mp (abs_value_le (inFormat_parts _))).2

theorem value_one : value (parts (1.0 : Float)) = 1 := by decide +kernel

/-- **Reciprocals fall as the numbers grow.** -/
theorem one_div_anti (hx : 0 < x) (h : x ≤ y) (hy : y.isFinite = true) :
    1.0 / y ≤ 1.0 / x := by
  have h_zero : value (parts (0 : Float)) = 0 := value_zero .positive
  have h_one : (1.0 : Float).isFinite = true := by decide
  have h_one_pos : 0 < value (parts (1.0 : Float)) := by
    rw [value_one]
    exact one_pos
  have hx := (lt_iff_value_lt.mp hx).2.2
  rw [h_zero] at hx
  obtain ⟨-, -, h⟩ := le_iff_value_le.mp h
  have hy' := hx.trans_le h
  have hx_fin := isFinite_of_value_le hx h hy
  refine le_iff_value_le.mpr ⟨(rounded_div h_one hy hy'.ne').isNumber,
    (rounded_div h_one hx_fin hx.ne').isNumber, ?_⟩
  -- equal numbers have equal reciprocals, but that is not a case of rounding in order
  rcases h.lt_or_eq with h_lt | h_eq
  · have h_quotient : value (parts (1.0 : Float)) / value (parts y)
        < value (parts (1.0 : Float)) / value (parts x) := div_lt_div_of_pos_left h_one_pos hx h_lt
    exact (closest_div h_one hy h_one_pos hy').value_le (closest_div h_one hx_fin h_one_pos hx)
      h_quotient
  · have h_parts := eq_of_value_eq (inFormat_parts x) (inFormat_parts y) hx h_eq
    rw [div_congr (rfl : parts (1.0 : Float) = parts 1.0) h_parts]

end Stored

end ClipEdit.Binary64
