import ClipEdit.Proofs.Scalar.Milli
import ClipEdit.Proofs.Scalar.Operations
import ClipEdit.Scalar.Binary64

/-!
# Whole binary64 numbers

The editor rounds a binary64 number to a whole number by exact arithmetic on its bits. `decode` takes
the bits apart on its own account, and `decode_eq` says that it finds what the number stands for:
so the rounding is that of the exact value, with nothing lost on the way (`value_roundWhole`).
-/

namespace ClipEdit.Binary64

open Float.Model Float.Model.UnpackedFloat

/-! ### Bits -/

/-- The negative sign as a flag. -/
def isNegative : Sign → Bool
  | .negative => true
  | .positive => false

/-- A number in the words of `decode`: a zero has no mantissa left. -/
def named : UnpackedFloat → Binary64
  | .notANumber => .nan
  | .infinity s => .infinite (isNegative s)
  | .zero s => .finite (isNegative s) 0 (-1074)
  | .finite s m e _ => .finite (isNegative s) m e

section Bits

variable (b : BitVec Format.binary64.numBits)

theorem toNat_unpackExponent : (unpackExponent b).toNat = b.toNat / 2 ^ 52 % 2 ^ 11 := by
  simp only [unpackExponent, BitVec.toNat_cast, BitVec.extractLsb_toNat, Nat.shiftRight_eq_div_pow]

theorem toNat_unpackMantissa : (unpackMantissa b).toNat = b.toNat % 2 ^ 52 := by
  simp only [unpackMantissa, BitVec.toNat_cast, BitVec.extractLsb_toNat, Nat.shiftRight_zero]

theorem isNegative_unpackSign :
    isNegative (Sign.ofBitVec (unpackSign b)) = decide (2 ^ 63 ≤ b.toNat) := by
  have h_lt : b.toNat < 2 ^ 64 := b.isLt
  -- the sign is the highest of the 64 bits
  have h_sign : (unpackSign b).toNat = b.toNat / 2 ^ 63 := by
    simp only [unpackSign, BitVec.toNat_cast, BitVec.extractLsb_toNat, Nat.shiftRight_eq_div_pow]
    omega
  have h_zero : unpackSign b = 0#1 ↔ b.toNat < 2 ^ 63 := by
    rw [← BitVec.toNat_inj, h_sign]
    change b.toNat / 2 ^ 63 = 0 ↔ _
    omega
  rw [Sign.ofBitVec]
  split
  · next h =>
    rw [h_zero] at h
    exact (decide_eq_false (by omega)).symm
  · next h =>
    rw [h_zero] at h
    exact (decide_eq_true (by omega)).symm

end Bits

/-- **The bits name what the number stands for.** -/
theorem decode_eq (x : Float) : decode x = named (parts x) := by
  obtain ⟨b, hb⟩ : ∃ b : BitVec Format.binary64.numBits, b = x.toModel.toBits.toBitVec := ⟨_, rfl⟩
  have h_bits : x.toBits.toNat = b.toNat := by
    rw [hb]
    rfl
  have h_parts : parts x = UnpackedFloat.unpack Format.binary64 b := by
    rw [hb]
    rfl
  have h_exponent := toNat_unpackExponent b
  have h_mantissa := toNat_unpackMantissa b
  have h_sign := isNegative_unpackSign b
  -- the tests on bit vectors, as tests on the same digits of one natural number
  have h_top : unpackExponent b = -1#11 ↔ b.toNat / 2 ^ 52 % 2 ^ 11 = 2 ^ 11 - 1 := by
    rw [← BitVec.toNat_inj, h_exponent]
    rfl
  have h_least : unpackExponent b = 0#11 ↔ b.toNat / 2 ^ 52 % 2 ^ 11 = 0 := by
    rw [← BitVec.toNat_inj, h_exponent]
    rfl
  have h_empty : unpackMantissa b = 0#52 ↔ b.toNat % 2 ^ 52 = 0 := by
    rw [← BitVec.toNat_inj, h_mantissa]
    rfl
  -- both go by the exponent: all ones, all zeros, or a number with its leading bit left out
  simp only [decode, h_bits, h_parts, UnpackedFloat.unpack, h_top, h_least, h_empty]
  split
  · split
    · exact congrArg Binary64.infinite h_sign.symm
    · rfl
  · split
    · next h_zero =>
      split
      · next h_empty' =>
        rw [h_empty', ← h_sign]
        rfl
      · change _ = Binary64.finite (isNegative _) (unpackMantissa b).toNat _
        rw [h_sign, h_mantissa, h_exponent, h_zero]
        rfl
    · change _ = Binary64.finite (isNegative _) (1#1 ++ unpackMantissa b).toNat _
      rw [h_sign, toNat_leading_append, h_mantissa, h_exponent]
      rfl

/-! ### Rounding -/

/-- A half upwards is the nearest whole number of a quantity that is not negative. -/
theorem roundWhole_size (m k : Nat) :
    Exact.roundWhole (size m (.negSucc k)) = roundHalfUp m (k + 1) := by
  have h_pow : (0 : ℚ) < 2 ^ (k + 1) := by positivity
  have h_half : size m (.negSucc k) + 1 / 2
      = ((2 * m + 2 ^ (k + 1) : ℕ) : ℚ) / ((2 ^ (k + 1 + 1) : ℕ) : ℚ) := by
    rw [size, zpow_negSucc]
    push_cast
    rw [pow_succ 2 (k + 1)]
    field_simp
  rw [Exact.roundWhole_of_nonneg (size_nonneg _ _), h_half, Rat.floor_natCast_div_natCast]
  rfl

theorem roundHalfUp_lt {m : Nat} (h : m < 2 ^ 53) (k : Nat) : roundHalfUp m (k + 1) < 2 ^ 53 := by
  have h_two : 2 ^ (k + 1 + 1) = 2 * 2 ^ (k + 1) := by ring
  have h_one : 2 ≤ 2 ^ (k + 1) := Nat.le_self_pow (by omega) 2
  change (2 * m + 2 ^ (k + 1)) / 2 ^ (k + 1 + 1) < 2 ^ 53
  rw [Nat.div_lt_iff_lt_mul (by positivity), h_two]
  nlinarith

theorem rounded_ofNat (n : Nat) : Rounded n (Float.ofNat n) := by
  have h := rounded_literal n (e := 0) (by norm_num)
  rwa [pow_zero, mul_one] at h

/-- Whole numbers of up to 53 bits are exact. -/
theorem value_ofNat {n : Nat} (h : n < 2 ^ 53) : value (parts (Float.ofNat n)) = n := by
  obtain ⟨z, hz, h_value⟩ := exists_inFormat_natCast h
  exact (rounded_ofNat n).eq_value hz h_value

theorem parts_neg (x : Float) : parts (-x) = (parts x).neg := by
  have h_neg : InFormat (parts x).neg := (inFormat_parts x).neg
  change (Float.Model.pack (parts x).neg).unpack = _
  rw [unpack_pack h_neg.onGrid, h_neg.cutOff_eq]

theorem Rounded.neg {q : ℚ} {x : Float} (h : Rounded q x) : Rounded (-q) (-x) := by
  unfold Rounded
  rw [parts_neg]
  exact Faithful.neg h

theorem isFinite_neg {x : Float} (hx : x.isFinite = true) : (-x).isFinite = true := by
  change (parts (-x)).isFinite = true
  rw [parts_neg]
  change (parts x).isFinite = true at hx
  cases h_parts : parts x <;> simp_all [UnpackedFloat.isFinite, UnpackedFloat.neg]

/-- A whole number with a sign. -/
theorem value_signed_ofNat (s : Sign) {n : Nat} (h : n < 2 ^ 53) :
    (if isNegative s then -Float.ofNat n else Float.ofNat n).isFinite = true ∧
      value (parts (if isNegative s then -Float.ofNat n else Float.ofNat n)) = unit s * n := by
  have h_value : value (parts (if isNegative s then -Float.ofNat n else Float.ofNat n))
      = unit s * n := by
    cases s
    · change value (parts (-Float.ofNat n)) = -1 * n
      rw [parts_neg, value_neg, value_ofNat h, neg_one_mul]
    · change value (parts (Float.ofNat n)) = 1 * n
      rw [value_ofNat h, one_mul]
  have h_number : parts (if isNegative s then -Float.ofNat n else Float.ofNat n) ≠ .notANumber := by
    cases s
    · exact (rounded_ofNat n).neg.isNumber
    · exact (rounded_ofNat n).isNumber
  -- counts below `2^53` are numbers of the format, with either sign
  have h_abs : |unit s * n| = n := by
    cases s <;> simp [unit]
  have h_cast : (n : ℚ) ≤ 2 ^ 53 := by exact_mod_cast h.le
  refine ⟨isFinite_of_abs_le (m := 2 ^ 52) (e := 1) h_number
    ⟨by norm_num, by norm_num, Or.inl le_rfl⟩ (by norm_num) ?_, h_value⟩
  calc |value (parts (if isNegative s then -Float.ofNat n else Float.ofNat n))| = n := by
        rw [h_value, h_abs]
    _ ≤ 2 ^ 53 := h_cast
    _ = size (2 ^ 52) 1 := by norm_num [size]

/-- A number with a fractional part is rounded by its mantissa. -/
theorem roundWhole_fraction (s : Sign) (m k : Nat) :
    Exact.roundWhole (unit s * size m (.negSucc k)) = unit s * roundHalfUp m (k + 1) := by
  cases s
  · rw [unit, neg_one_mul, neg_one_mul, Exact.roundWhole_neg, roundWhole_size]
  · rw [unit, one_mul, one_mul, roundWhole_size]

/-- **Rounding to a whole number is exact.** -/
theorem roundWhole_exact {x : Float} (hx : x.isFinite = true) :
    (roundWhole x).isFinite = true ∧
      value (parts (roundWhole x)) = Exact.roundWhole (value (parts x)) := by
  have h_format := inFormat_parts x
  rw [roundWhole, decode_eq]
  rcases zero_or_finite (u := parts x) hx with ⟨s, h⟩ | ⟨s, m, e, _, h⟩
  · -- a zero has the least exponent, so it takes the path of the fractions
    have h_value : value (parts x) = unit s * size 0 (.negSucc 1073) := by
      rw [h]
      simp [size]
    rw [h_value, roundWhole_fraction, h]
    exact value_signed_ofNat s (roundHalfUp_lt (by norm_num) _)
  · rw [h] at h_format
    have h_lt : m < 2 ^ 53 := h_format.1.lt_two_pow
    cases e with
    | ofNat k =>
      have h_whole : value (parts x) = ((s.apply (m * 2 ^ k) : Int) : ℚ) := by
        rw [h, value_finite]
        cases s <;> simp [Sign.apply]
      rw [h_whole, Exact.roundWhole_intCast, h]
      exact ⟨hx, h_whole⟩
    | negSucc k =>
      have h_value : value (parts x) = unit s * size m (.negSucc k) := by
        rw [h, value_finite_eq]
      rw [h_value, roundWhole_fraction, h]
      exact value_signed_ofNat s (roundHalfUp_lt h_lt k)

/-- What is not finite has nothing to round. -/
theorem roundWhole_of_not_isFinite {x : Float} (hx : x.isFinite ≠ true) : roundWhole x = x := by
  rw [roundWhole, decode_eq]
  cases h : parts x with
  | notANumber => rfl
  | infinity s => rfl
  | _ => exact absurd (by change (parts x).isFinite = true; rw [h]; rfl) hx

end ClipEdit.Binary64
