import ClipEdit.Proofs.Scalar.Gauge
import ClipEdit.Proofs.Scalar.Whole

/-!
# Thousandths that overflow

Rounding a binary64 number to thousandths multiplies it by a thousand first. That is the one step
that can leave the finite numbers: `isFinite_roundMilli` says that a number is rounded to a finite
one exactly if a thousand times the number is finite. So the largest numbers have no thousandths,
although they are thousandths themselves.

`Below k` is a bound by a power of two that is carried through the operations of the editor. A number
below `2 ^ 1013` can be rounded twice (`Below.roundMilli_twice`), as what is stored is rounded once
more when it is exported.
-/

namespace ClipEdit.Binary64

open Float.Model Float.Model.UnpackedFloat Scalar

/-- **A number that is not past a power of two**, on either side of zero. -/
structure Below (k : Nat) (x : Float) : Prop where
  isNumber : parts x ≠ .notANumber
  le_pow : |value (parts x)| ≤ 2 ^ k

variable {k : Nat} {q : ℚ} {x y : Float}

/-! ### Powers of two -/

theorem gridPoint_pow (k : Nat) : GridPoint (2 ^ 52) ((k : Int) - 52) :=
  ⟨by norm_num, by omega, Or.inl le_rfl⟩

theorem size_pow (k : Nat) : size (2 ^ 52) ((k : Int) - 52) = 2 ^ k := by
  rw [size, zpow_sub₀ (by norm_num : (2 : ℚ) ≠ 0), zpow_natCast]
  push_cast
  field_simp

theorem Below.isFinite (h : Below k x) (hk : k ≤ 1023) : x.isFinite = true :=
  isFinite_of_abs_le h.isNumber (gridPoint_pow k) (by omega) (h.le_pow.trans_eq (size_pow k).symm)

theorem Below.mono {j : Nat} (h : Below k x) (hk : k ≤ j) : Below j x :=
  ⟨h.isNumber, h.le_pow.trans (pow_le_pow_right₀ (by norm_num) hk)⟩

/-- Rounding does not pass a power of two. -/
theorem Rounded.below (h : Rounded q x) (hk : k ≤ 1023) (hq : |q| ≤ 2 ^ k) : Below k x := by
  refine ⟨h.isNumber, ?_⟩
  have h_le := h.abs_value_le_size (by norm_num) (gridPoint_pow k) (by omega)
    (hq.trans_eq (size_pow k).symm)
  exact h_le.trans_eq (size_pow k)

/-- What is brought between two numbers that are not past a power of two is not past it either. -/
theorem Below.within {lo hi : Float} (h_lo : Below k lo) (h_hi : Below k hi) (x : Float) :
    Below k (within x lo hi) := by
  obtain ⟨h_num, h_least, h_le⟩ := Gauge.isNumber_within h_lo.isNumber h_hi.isNumber x
  have h_lo_pow := abs_le.mp h_lo.le_pow
  have h_hi_pow := abs_le.mp h_hi.le_pow
  refine ⟨h_num, abs_le.mpr ⟨?_, h_le.trans h_hi_pow.2⟩⟩
  exact (le_min h_lo_pow.1 h_hi_pow.1).trans h_least

/-! ### Quotients -/

/-- A quotient is not larger than what was divided, if the divisor is not below one. -/
theorem isFinite_div_of_one_le (hx : x.isFinite = true) (hy : y.isFinite = true)
    (h_one : 1 ≤ value (parts y)) : (x / y).isFinite = true := by
  have h_rounded := rounded_div hx hy (by linarith)
  have h_le : |value (parts x) / value (parts y)| ≤ |value (parts x)| := by
    rw [abs_div, abs_of_pos (lt_of_lt_of_le one_pos h_one)]
    exact div_le_self (abs_nonneg _) h_one
  have h_limit := ((isFinite_iff (inFormat_parts x)).mp hx).2
  exact (isFinite_iff (inFormat_parts _)).mpr
    ⟨h_rounded.isNumber, (h_rounded.abs_value_le (inFormat_parts x) h_le).trans_lt h_limit⟩

/-! ### Rounding to thousandths -/

theorem isFinite_thousand : (1000.0 : Float).isFinite = true := by decide

theorem value_thousand : value (parts (1000.0 : Float)) = 1000 := by decide +kernel

theorem Below.roundWhole (h : Below k x) (hk : k ≤ 1023) : Below k (roundWhole x) := by
  obtain ⟨h_fin, h_value⟩ := roundWhole_exact (h.isFinite hk)
  refine ⟨((isFinite_iff (inFormat_parts _)).mp h_fin).1, ?_⟩
  have h_bound := abs_le.mp h.le_pow
  -- a power of two is whole, and rounding is monotone
  have h_pow : Exact.roundWhole (2 ^ k) = 2 ^ k := by
    have h_whole := Exact.roundWhole_intCast (2 ^ k)
    push_cast at h_whole
    exact h_whole
  rw [h_value, abs_le]
  constructor
  · calc -(2 ^ k) = Exact.roundWhole (-(2 ^ k)) := by rw [Exact.roundWhole_neg, h_pow]
      _ ≤ Exact.roundWhole (value (parts x)) := Exact.monotone_roundWhole h_bound.1
  · calc Exact.roundWhole (value (parts x)) ≤ Exact.roundWhole (2 ^ k) :=
          Exact.monotone_roundWhole h_bound.2
      _ = 2 ^ k := h_pow

theorem rounded_div_thousand (hx : x.isFinite = true) :
    Rounded (value (parts x) / 1000) (x / 1000.0) := by
  have h_ne : value (parts (1000.0 : Float)) ≠ 0 := by
    rw [value_thousand]
    norm_num
  have h_rounded := rounded_div hx isFinite_thousand h_ne
  rwa [value_thousand] at h_rounded

theorem isFinite_div_thousand (hx : x.isFinite = true) : (x / 1000.0).isFinite = true :=
  isFinite_div_of_one_le hx isFinite_thousand (by rw [value_thousand]; norm_num)

/-- The quotient that a number is rounded to, unless that is a zero. -/
def milliQuotient (x : Float) : Float := Binary64.roundWhole (x * 1000.0) / 1000.0

/-- A zero is replaced by the positive one, and nothing else is. -/
theorem roundMilli_cases (x : Float) :
    roundMilli x = milliQuotient x ∨
      roundMilli x = 0 ∧ (milliQuotient x).isFinite = true ∧ value (parts (milliQuotient x)) = 0 := by
  by_cases h : (milliQuotient x == 0) = true
  · obtain ⟨h_number, -, h_value⟩ := beq_iff_value_eq.mp h
    have h_zero : value (parts (milliQuotient x)) = 0 := h_value.trans (value_zero .positive)
    refine Or.inr ⟨if_pos h, (isFinite_iff (inFormat_parts _)).mpr ⟨h_number, ?_⟩, h_zero⟩
    rw [h_zero, abs_zero]
    exact limit_pos
  · exact Or.inl (if_neg h)

theorem isFinite_milliQuotient (x : Float) :
    (milliQuotient x).isFinite = true ↔ (x * 1000.0).isFinite = true := by
  constructor
  · intro h
    by_contra h_not
    -- what is not finite is not rounded, and stays what it is when it is divided
    rw [milliQuotient, roundWhole_of_not_isFinite h_not] at h
    exact h_not (isFinite_of_div h isFinite_thousand)
  · intro h
    obtain ⟨h_fin, -⟩ := roundWhole_exact h
    exact isFinite_div_thousand h_fin

theorem isFinite_roundMilli (x : Float) :
    (roundMilli x).isFinite = true ↔ (x * 1000.0).isFinite = true := by
  rw [← isFinite_milliQuotient]
  rcases roundMilli_cases x with h | ⟨h, h_fin, -⟩
  · rw [h]
  · rw [h, h_fin]
    exact iff_of_true (by decide) rfl

theorem value_roundMilli (x : Float) :
    value (parts (roundMilli x)) = value (parts (milliQuotient x)) := by
  rcases roundMilli_cases x with h | ⟨h, -, h_zero⟩
  · rw [h]
  · rw [h, h_zero]
    exact value_zero .positive

theorem rounded_mul_thousand (hx : x.isFinite = true) :
    Rounded (value (parts x) * 1000) (x * 1000.0) := by
  have h_rounded := rounded_mul hx isFinite_thousand
  rwa [value_thousand] at h_rounded

theorem abs_mul_thousand_le (h : Below k x) : |value (parts x) * 1000| ≤ 2 ^ k * 1000 := by
  rw [abs_mul, abs_of_pos (by norm_num : (0 : ℚ) < 1000)]
  exact mul_le_mul_of_nonneg_right h.le_pow (by norm_num)

/-- A thousand is less than ten bits, and what rounding adds is less than the rest of them. -/
theorem Below.roundMilli (h : Below k x) (hk : k ≤ 1013) : Below (k + 1) (roundMilli x) := by
  -- a thousand is less than `2^10`
  have h_mul : Below (k + 10) (x * 1000.0) := by
    refine (rounded_mul_thousand (h.isFinite (by omega))).below (by omega) ?_
    calc |value (parts x) * 1000| ≤ 2 ^ k * 1000 := abs_mul_thousand_le h
      _ ≤ 2 ^ k * 2 ^ 10 := mul_le_mul_of_nonneg_left (by norm_num) (by positivity)
      _ = 2 ^ (k + 10) := (pow_add _ _ _).symm
  have h_whole := h_mul.roundWhole (by omega)
  -- and more than half of it, so that one bit may be left over
  have h_quotient : Below (k + 1) (milliQuotient x) := by
    refine (rounded_div_thousand (h_whole.isFinite (by omega))).below (by omega) ?_
    rw [abs_div, abs_of_pos (by norm_num : (0 : ℚ) < 1000), div_le_iff₀ (by norm_num)]
    calc |value (parts (Binary64.roundWhole (x * 1000.0)))| ≤ 2 ^ (k + 10) := h_whole.le_pow
      _ = 2 ^ k * 2 ^ 10 := pow_add _ _ _
      _ ≤ 2 ^ k * (2 * 1000) := mul_le_mul_of_nonneg_left (by norm_num) (by positivity)
      _ = 2 ^ (k + 1) * 1000 := by ring
  refine ⟨?_, (value_roundMilli x).symm ▸ h_quotient.le_pow⟩
  rcases roundMilli_cases x with h_eq | ⟨h_eq, -⟩
  · rw [h_eq]
    exact h_quotient.isNumber
  · rw [h_eq]
    exact Gauge.isNumber_zero (α := Float)

/-- **What was rounded to thousandths is not large**: rounding multiplied it by a thousand. -/
theorem below_roundMilli (h : (Scalar.roundMilli x).isFinite = true) :
    Below 1015 (Scalar.roundMilli x) := by
  obtain ⟨h_fin, -⟩ := roundWhole_exact ((isFinite_roundMilli x).mp h)
  have h_quotient : Below 1015 (milliQuotient x) := by
    refine (rounded_div_thousand h_fin).below (by norm_num) ?_
    have h_limit := ((isFinite_iff (inFormat_parts _)).mp h_fin).2
    rw [abs_div, abs_of_pos (by norm_num : (0 : ℚ) < 1000), div_le_iff₀ (by norm_num)]
    calc |value (parts (Binary64.roundWhole (x * 1000.0)))| ≤ limit := h_limit.le
      _ = 2 ^ 1015 * 2 ^ 9 := (size_pow 1024).trans (pow_add 2 1015 9)
      _ ≤ 2 ^ 1015 * 1000 := mul_le_mul_of_nonneg_left (by norm_num) (by positivity)
  refine ⟨((isFinite_iff (inFormat_parts _)).mp h).1, ?_⟩
  rw [value_roundMilli]
  exact h_quotient.le_pow

/-- The largest power of two that has thousandths. -/
theorem Below.isFinite_mul_thousand (h : Below 1014 x) : (x * 1000.0).isFinite = true := by
  refine (rounded_mul_thousand (h.isFinite (by norm_num))).isFinite (m := 1000 * 2 ^ 43) (e := 971)
    (by norm_num) ⟨by norm_num, by norm_num, Or.inl (by norm_num)⟩ le_rfl ?_
  calc |value (parts x) * 1000| ≤ 2 ^ 1014 * 1000 := abs_mul_thousand_le h
    _ = size (1000 * 2 ^ 43) 971 := by
      have h_split : (2 : ℚ) ^ 1014 = 2 ^ 43 * 2 ^ 971 := by rw [← pow_add]
      rw [size, show (971 : Int) = ((971 : Nat) : Int) from rfl, zpow_natCast, h_split, mul_right_comm]
      norm_num

/-- What is stored was rounded to thousandths, and is rounded again when it is exported. -/
theorem Below.roundMilli_twice (h : Below 1013 x) :
    (Scalar.roundMilli x).isFinite = true ∧
      (Scalar.roundMilli (Scalar.roundMilli x)).isFinite = true := by
  have h_once := h.roundMilli le_rfl
  exact ⟨h_once.isFinite (by norm_num), (isFinite_roundMilli _).mpr h_once.isFinite_mul_thousand⟩

/-- Rounding does not pass zero. -/
theorem value_roundMilli_nonneg (h : (x * 1000.0).isFinite = true) (hx : x.isFinite = true)
    (h_nonneg : 0 ≤ value (parts x)) : 0 ≤ value (parts (Scalar.roundMilli x)) := by
  have h_mul : 0 ≤ value (parts (x * 1000.0)) :=
    (rounded_mul_thousand hx).le_value (z := .zero .positive) trivial (by simpa using h_nonneg)
  obtain ⟨h_fin, h_value⟩ := roundWhole_exact h
  have h_whole : 0 ≤ value (parts (Binary64.roundWhole (x * 1000.0))) := by
    rw [h_value, Exact.roundWhole_of_nonneg h_mul]
    exact_mod_cast Int.floor_nonneg.mpr (by linarith)
  rw [value_roundMilli]
  exact (rounded_div_thousand h_fin).le_value (z := .zero .positive) trivial
    (div_nonneg h_whole (by norm_num))

end ClipEdit.Binary64
