import Mathlib

/-!
# The grid of binary64 numbers

The finite binary64 numbers of one sign are the points `m · 2^e` of a grid: `m` has at most 53 bits,
and unless `e` is the smallest exponent it has exactly 53 (`GridPoint`). No exponent is too large
here; what lies beyond the largest number is cut off when a number is packed, in
`ClipEdit.Proofs.Scalar.Value`.

* `GridPoint.compare_eq` — comparing exponents first and mantissas second compares the numbers;
* `RoundsTo`, `exists_round` — **rounding never crosses a grid point**: a quantity below a grid
  point is not rounded above it, and the other way round;
* `shifted_half`, `RoundsTo.near` — **rounding moves nothing by more than half a step**, which is a
  small part of every quantity that is not below `leastFull`;
* `nearest_of_half` — so no grid point is nearer to a quantity than the one that it is rounded to.

Almost everything the editor needs to know about rounding follows from the second fact. The third one
is needed where an error has to be small and not only on the right side, and the fourth one where two
quantities must not be rounded to the other order. Which way a tie goes is nowhere used.
-/

namespace ClipEdit.Binary64

open Float.Model Float.Model.UnpackedFloat

/-- The number `m · 2^e`. -/
def size (m : Nat) (e : Int) : ℚ := (m : ℚ) * (2 : ℚ) ^ e

/-- A point of the grid: 53 bits, or fewer at the smallest exponent. -/
structure GridPoint (m : Nat) (e : Int) : Prop where
  lt_two_pow : m < 2 ^ 53
  le_exponent : -1074 ≤ e
  full_or_least : 2 ^ 52 ≤ m ∨ e = -1074

/-! ### Sizes -/

theorem size_nonneg (m : Nat) (e : Int) : 0 ≤ size m e := by
  unfold size
  positivity

theorem size_pos {m : Nat} (hm : 0 < m) (e : Int) : 0 < size m e := by
  have hm' : (0 : ℚ) < m := by exact_mod_cast hm
  unfold size
  positivity

/-- Shifting the mantissa up and the exponent down leaves the number as it is. -/
theorem size_shift (m k : Nat) (e : Int) : size (m * 2 ^ k) (e - k) = size m e := by
  unfold size
  rw [zpow_sub₀ (by norm_num : (2 : ℚ) ≠ 0), zpow_natCast]
  push_cast
  field_simp

/-- A number at a smaller exponent. -/
theorem size_eq_size {k : Nat} {e f : Int} (h : f = e + k) (m : Nat) :
    size m f = size (m * 2 ^ k) e := by
  rw [← size_shift m k f, h, add_sub_cancel_right]

theorem size_add (m n : Nat) (e : Int) : size (m + n) e = size m e + size n e := by
  unfold size
  rw [Nat.cast_add, add_mul]

/-- Sizes with one exponent compare like their mantissas. -/
theorem size_le_size_iff {m n : Nat} {e : Int} : size m e ≤ size n e ↔ m ≤ n := by
  have hp : (0 : ℚ) < (2 : ℚ) ^ e := by positivity
  unfold size
  rw [mul_le_mul_iff_left₀ hp]
  exact_mod_cast Iff.rfl

theorem size_lt_size_iff {m n : Nat} {e : Int} : size m e < size n e ↔ m < n := by
  rw [← not_le, ← not_le, size_le_size_iff]

/-- A mantissa below 53 bits, at a smaller exponent, is below every full mantissa. -/
theorem size_lt_of_exponent_lt {m n : Nat} {e f : Int} (hm : m < 2 ^ 53) (hn : 2 ^ 52 ≤ n)
    (hef : e < f) : size m e < size n f := by
  obtain ⟨k, rfl⟩ : ∃ k : Nat, f = e + 1 + k := ⟨(f - e - 1).toNat, by omega⟩
  have h_shift : size n (e + 1 + k) = size (n * 2 ^ (k + 1)) e :=
    size_eq_size (by push_cast; ring) n
  -- brought to the smaller exponent, the full mantissa has at least one bit more
  have h_full : 2 ^ 53 ≤ n * 2 ^ (k + 1) := by
    calc 2 ^ 53 = 2 ^ 52 * 2 ^ 1 := by norm_num
      _ ≤ n * 2 ^ (k + 1) := Nat.mul_le_mul hn (Nat.pow_le_pow_right (by norm_num) (by omega))
  rw [h_shift, size_lt_size_iff]
  omega

namespace GridPoint

variable {m n : Nat} {e f : Int}

/-- A grid point at a larger exponent than another grid point is full. -/
theorem full_of_lt (hn : GridPoint n f) (he : -1074 ≤ e) (hef : e < f) : 2 ^ 52 ≤ n := by
  rcases hn.full_or_least with h | h
  · exact h
  · omega

/-- **The order of the grid.** Exponents decide, and mantissas decide between equal exponents. -/
theorem compare_eq (hm : GridPoint m e) (hn : GridPoint n f) :
    (compare e f).then (compare m n) = compare (size m e) (size n f) := by
  rcases lt_trichotomy e f with h | h | h
  · -- the larger exponent belongs to a full mantissa, whatever the other one is
    have h_lt := size_lt_of_exponent_lt hm.lt_two_pow (hn.full_of_lt hm.le_exponent h) h
    rw [compare_lt_iff_lt.mpr h, compare_lt_iff_lt.mpr h_lt]
    rfl
  · subst h
    rw [compare_eq_iff_eq.mpr (rfl : e = e)]
    change compare m n = _
    rcases lt_trichotomy m n with h' | h' | h'
    · rw [compare_lt_iff_lt.mpr h', compare_lt_iff_lt.mpr (size_lt_size_iff.mpr h')]
    · rw [h', compare_eq_iff_eq.mpr rfl, compare_eq_iff_eq.mpr rfl]
    · rw [compare_gt_iff_gt.mpr h', compare_gt_iff_gt.mpr (size_lt_size_iff.mpr h')]
  · have h_lt := size_lt_of_exponent_lt hn.lt_two_pow (hm.full_of_lt hn.le_exponent h) h
    rw [compare_gt_iff_gt.mpr h, compare_gt_iff_gt.mpr h_lt]
    rfl

end GridPoint

/-! ### Shifting out bits -/

theorem mantissa_shiftRight (x : ExtendedMantissa) (k : Nat) :
    (x >>> k).mantissa = x.mantissa / 2 ^ k := by
  induction k with
  | zero => exact (Nat.div_one _).symm
  | succ k ih =>
    change (x >>> k).mantissa / 2 = _
    rw [ih, Nat.div_div_eq_div_mul, pow_succ]

/-- Shifting out zeros is exact. -/
theorem shiftRight_exact (n k : Nat) :
    (⟨n * 2 ^ k, false, false⟩ : ExtendedMantissa) >>> k = ⟨n, false, false⟩ := by
  induction k generalizing n with
  | zero =>
    change (⟨n * 2 ^ 0, false, false⟩ : ExtendedMantissa) = _
    rw [pow_zero, mul_one]
  | succ k ih =>
    change ((⟨n * 2 ^ (k + 1), false, false⟩ : ExtendedMantissa) >>> k).shiftRightOne = _
    rw [show n * 2 ^ (k + 1) = n * 2 * 2 ^ k by ring, ih]
    simp [ExtendedMantissa.shiftRightOne]

theorem le_roundedMantissa (x : ExtendedMantissa) : x.mantissa ≤ x.roundedMantissa := by
  obtain ⟨m, r, s⟩ := x
  cases r <;> cases s <;>
    simp [ExtendedMantissa.roundedMantissa, ExtendedMantissa.accuracy,
      Accuracy.roundToNearestEven]

theorem roundedMantissa_le (x : ExtendedMantissa) : x.roundedMantissa ≤ x.mantissa + 1 := by
  obtain ⟨m, r, s⟩ := x
  cases r <;> cases s <;>
    simp only [ExtendedMantissa.roundedMantissa, ExtendedMantissa.accuracy,
      Accuracy.roundToNearestEven] <;>
    omega

/-- The mantissa that is left when `k` bits of `m` are rounded away. -/
def shifted (m k : Nat) : Nat :=
  ((⟨m, false, false⟩ : ExtendedMantissa) >>> k).roundedMantissa

theorem div_le_shifted (m k : Nat) : m / 2 ^ k ≤ shifted m k := by
  have h := le_roundedMantissa ((⟨m, false, false⟩ : ExtendedMantissa) >>> k)
  rwa [mantissa_shiftRight] at h

theorem shifted_le_div (m k : Nat) : shifted m k ≤ m / 2 ^ k + 1 := by
  have h := roundedMantissa_le ((⟨m, false, false⟩ : ExtendedMantissa) >>> k)
  rwa [mantissa_shiftRight] at h

/-- A whole number that is not below `m / 2^k` is not below the rounded quotient. -/
theorem shifted_le {m k n : Nat} (h : m ≤ n * 2 ^ k) : shifted m k ≤ n := by
  have hk : 0 < 2 ^ k := by positivity
  by_cases hd : 2 ^ k ∣ m
  · -- only zeros are shifted out
    obtain ⟨q, rfl⟩ := hd
    rw [mul_comm, shifted, shiftRight_exact]
    rw [mul_comm] at h
    exact Nat.le_of_mul_le_mul_right h hk
  · -- the quotient is not whole, so it is rounded to one of the two sides of a gap below `n`
    have h_ne : m ≠ n * 2 ^ k := by
      rintro rfl
      exact hd (Dvd.intro_left n rfl)
    have h_lt : m / 2 ^ k < n := (Nat.div_lt_iff_lt_mul hk).mpr (by omega)
    have h_up := shifted_le_div m k
    omega

/-- A whole number that is not above `m / 2^k` is not above the rounded quotient. -/
theorem le_shifted {m k n : Nat} (h : n * 2 ^ k ≤ m) : n ≤ shifted m k :=
  le_trans ((Nat.le_div_iff_mul_le (by positivity)).mpr h) (div_le_shifted m k)

/-- The two bits behind a mantissa compare what is left over with a half. One more bit that is shifted
out is the first of what is left over then. -/
theorem shiftRightOne_fraction {n r d : Nat} (h : r < d) :
    (ExtendedMantissa.ofMantissaAndAccuracy n (accuracyOfFraction r d)).shiftRightOne
      = ExtendedMantissa.ofMantissaAndAccuracy (n / 2)
          (accuracyOfFraction (r + d * (n % 2)) (d * 2)) := by
  rcases Nat.mod_two_eq_zero_or_one n with h_even | h_odd
  · -- a zero is shifted out, so what is left over is less than a half
    rw [h_even, Nat.mul_zero, Nat.add_zero, accuracyOfFraction, accuracyOfFraction]
    split
    · simp [ExtendedMantissa.ofMantissaAndAccuracy, ExtendedMantissa.shiftRightOne, h_even]
    · rw [compare_lt_iff_lt.mpr (by omega : 2 * r < d * 2)]
      cases compare (2 * r) d <;>
        simp [ExtendedMantissa.ofMantissaAndAccuracy, ExtendedMantissa.shiftRightOne, h_even]
  · -- a one is shifted out, so what is left over is a half or more
    have h_some : accuracyOfFraction (r + d) (d * 2)
        = .inexact (compare (2 * (r + d)) (d * 2)) := if_neg (by omega)
    rw [h_odd, Nat.mul_one, h_some, accuracyOfFraction]
    split
    · next h_zero =>
      rw [compare_eq_iff_eq.mpr (by omega : 2 * (r + d) = d * 2)]
      simp [ExtendedMantissa.ofMantissaAndAccuracy, ExtendedMantissa.shiftRightOne, h_odd]
    · rw [compare_gt_iff_gt.mpr (by omega : d * 2 < 2 * (r + d))]
      cases compare (2 * r) d <;>
        simp [ExtendedMantissa.ofMantissaAndAccuracy, ExtendedMantissa.shiftRightOne, h_odd]

/-- Shifting out `k` bits leaves the quotient by `2^k`, and the remainder compared with a half. -/
theorem shiftRight_eq (m k : Nat) :
    (⟨m, false, false⟩ : ExtendedMantissa) >>> k
      = .ofMantissaAndAccuracy (m / 2 ^ k) (accuracyOfFraction (m % 2 ^ k) (2 ^ k)) := by
  induction k with
  | zero =>
    change (⟨m, false, false⟩ : ExtendedMantissa) = _
    rw [pow_zero, Nat.div_one, Nat.mod_one]
    rfl
  | succ k ih =>
    change ((⟨m, false, false⟩ : ExtendedMantissa) >>> k).shiftRightOne = _
    rw [ih, shiftRightOne_fraction (Nat.mod_lt m (by positivity)), Nat.div_div_eq_div_mul,
      Nat.mod_pow_succ, pow_succ]

theorem roundedMantissa_eq (n : Nat) (a : Accuracy) :
    (ExtendedMantissa.ofMantissaAndAccuracy n a).roundedMantissa = a.roundToNearestEven n := by
  cases a with
  | exact => rfl
  | inexact o => cases o <;> rfl

/-- **Half a step at most**: a quotient that is rounded is moved by no more than a half. -/
theorem shifted_half (m k : Nat) :
    2 * m ≤ (2 * shifted m k + 1) * 2 ^ k ∧ 2 * shifted m k * 2 ^ k ≤ 2 * m + 2 ^ k := by
  have h_split : 2 ^ k * (m / 2 ^ k) + m % 2 ^ k = m := Nat.div_add_mod m (2 ^ k)
  have h_rest := Nat.mod_lt m (show 0 < 2 ^ k by positivity)
  rw [shifted, shiftRight_eq, roundedMantissa_eq]
  -- what is left is about a quotient, a rest and a divisor, by how the rest compares to half of it
  generalize m / 2 ^ k = n at *
  generalize m % 2 ^ k = r at *
  generalize 2 ^ k = d at *
  subst h_split
  have h_down : 2 * n * d = 2 * (d * n) := by ring
  have h_up : 2 * (n + 1) * d = 2 * (d * n) + 2 * d := by ring
  have h_add : ∀ a, (2 * a + 1) * d = 2 * a * d + d := fun a => by ring
  rw [h_add, accuracyOfFraction]
  split
  · next h_zero =>
    rw [Accuracy.roundToNearestEven, h_down]
    omega
  · rcases lt_trichotomy (2 * r) d with h_lt | h_eq | h_gt
    · rw [compare_lt_iff_lt.mpr h_lt, Accuracy.roundToNearestEven, h_down]
      omega
    · -- a tie goes to the even one, which may be either of the two
      rw [compare_eq_iff_eq.mpr h_eq, Accuracy.roundToNearestEven]
      rcases Nat.mod_two_eq_zero_or_one n with h_even | h_odd
      · rw [h_even, Nat.add_zero, h_down]
        omega
      · rw [h_odd, h_up]
        omega
    · rw [compare_gt_iff_gt.mpr h_gt, Accuracy.roundToNearestEven, h_up]
      omega
/-! ### Rounding to the grid -/

/-- The grid point of a size, with a sign. No mantissa is left of a size that is rounded to
nothing. -/
def signed (s : Sign) (m : Nat) (e : Int) : UnpackedFloat :=
  if h : m = 0 then .zero s else .finite s m e (Nat.pos_of_ne_zero h)

/-- `2^-1022`, the least size that has all its bits. -/
def leastFull : ℚ := size (2 ^ 52) (-1074)

/-- A grid point is a **rounding** of a quantity when no grid point lies strictly between the two. If
the quantity is large enough to have all its bits, the two differ by a small part of it only. -/
structure RoundsTo (q : ℚ) (m : Nat) (e : Int) : Prop where
  gridPoint : GridPoint m e
  size_le : ∀ {n f}, GridPoint n f → q ≤ size n f → size m e ≤ size n f
  le_size : ∀ {n f}, GridPoint n f → size n f ≤ q → size n f ≤ size m e
  near : leastFull ≤ q → |size m e - q| ≤ q / 2 ^ 53

/-- Half a step is a small part of a quantity that has all its bits. -/
theorem abs_size_sub_le {q : ℚ} {n : Nat} {e : Int} (h_full : size (2 ^ 52) e ≤ q)
    (h_lo : size (2 * n) (e - 1) ≤ q + size 1 (e - 1)) (h_hi : q ≤ size (2 * n + 1) (e - 1)) :
    |size n e - q| ≤ q / 2 ^ 53 := by
  have h_step : (2 : ℚ) ^ e = 2 * 2 ^ (e - 1) := by
    rw [zpow_sub_one₀ (by norm_num : (2 : ℚ) ≠ 0)]
    ring
  unfold size at *
  rw [h_step] at h_full ⊢
  push_cast at h_full h_lo h_hi
  rw [abs_le]
  constructor <;> linarith

/-- A size is **nearest** to a quantity when no grid point is nearer. -/
def Nearest (q x : ℚ) : Prop := ∀ n f, GridPoint n f → |x - q| ≤ |size n f - q|

/-- What is half a step away is nearer than any other number of steps. -/
theorem abs_size_sub_le_abs {q : ℚ} {n : Nat} {e : Int}
    (h_lo : size (2 * n) (e - 1) ≤ q + size 1 (e - 1)) (h_hi : q ≤ size (2 * n + 1) (e - 1))
    (a : Nat) : |size n e - q| ≤ |size a e - q| := by
  have h_step : (2 : ℚ) ^ e = 2 * 2 ^ (e - 1) := by
    rw [zpow_sub_one₀ (by norm_num : (2 : ℚ) ≠ 0)]
    ring
  have h_half : (0 : ℚ) < 2 ^ (e - 1) := by positivity
  unfold size at *
  rw [h_step]
  push_cast at h_lo h_hi
  -- another number of steps is at least one step further up or down
  rcases lt_trichotomy a n with h | rfl | h
  · have h_steps : (a : ℚ) + 1 ≤ n := by exact_mod_cast h
    have h_below := mul_le_mul_of_nonneg_right h_steps h_half.le
    refine le_trans ?_ (neg_le_abs _)
    rw [abs_le]
    constructor <;> linarith
  · exact le_rfl
  · have h_steps : (n : ℚ) + 1 ≤ a := by exact_mod_cast h
    have h_above := mul_le_mul_of_nonneg_right h_steps h_half.le
    refine le_trans ?_ (le_abs_self _)
    rw [abs_le]
    constructor <;> linarith

/-- **Half a step away is nearest**, if the step is that of the quantity: grid points with smaller
steps lie below all numbers that have their 53 bits at this one. -/
theorem nearest_of_half {q : ℚ} {n : Nat} {e : Int} (h_full : size (2 ^ 52) e ≤ q ∨ e = -1074)
    (h_lo : size (2 * n) (e - 1) ≤ q + size 1 (e - 1)) (h_hi : q ≤ size (2 * n + 1) (e - 1)) :
    Nearest q (size n e) := by
  intro a f h_grid
  rcases lt_or_ge f e with hf | hf
  · -- a finer grid point lies below the full ones, and the least of these is as close
    have h_least := h_grid.le_exponent
    have h_full' := h_full.resolve_right (by omega)
    have h_below := size_lt_of_exponent_lt h_grid.lt_two_pow le_rfl hf
    calc |size n e - q| ≤ |size (2 ^ 52) e - q| := abs_size_sub_le_abs h_lo h_hi _
      _ = q - size (2 ^ 52) e := by rw [abs_sub_comm, abs_of_nonneg (by linarith)]
      _ ≤ q - size a f := by linarith
      _ ≤ |size a f - q| := by
        rw [abs_sub_comm]
        exact le_abs_self _
  · -- a coarser one is a multiple of the same unit
    obtain ⟨j, rfl⟩ : ∃ j : Nat, f = e + j := ⟨(f - e).toNat, by omega⟩
    rw [size_eq_size rfl a]
    exact abs_size_sub_le_abs h_lo h_hi _

/-- The exponent that a number is rounded at: 53 bits below its first one, or the least one. -/
theorem targetExponent_eq (m : Nat) (e : Int) :
    Format.binary64.targetExponent (totalExponent m e) = max (m.log2 + e - 52) (-1074) := by
  simp only [Format.targetExponent, totalExponent, Format.mantissaBits, Format.minExponent]
  norm_num
  omega

section Target

variable {m : Nat} {e T : Int} {k : Nat}

/-- Above the least exponent, 53 bits are left of a number that is rounded. -/
theorem full_div_of_target (hm : 0 < m) (hT : T = max (m.log2 + e - 52) (-1074))
    (hk : T = e + k) (h_least : T ≠ -1074) : 2 ^ 52 ≤ m / 2 ^ k := by
  have h_log : m.log2 = 52 + k := by omega
  rw [Nat.le_div_iff_mul_le (by positivity), ← pow_add, ← h_log]
  exact Nat.log2_self_le (by omega)

/-- Never more than 53 bits are left. -/
theorem div_lt_of_target (hT : T = max (m.log2 + e - 52) (-1074)) (hk : T = e + k) :
    m / 2 ^ k < 2 ^ 53 := by
  have h_log : m.log2 + 1 ≤ 53 + k := by omega
  rw [Nat.div_lt_iff_lt_mul (by positivity), ← pow_add]
  exact lt_of_lt_of_le Nat.lt_log2_self (Nat.pow_le_pow_right (by norm_num) h_log)

/-- Above a grid point at a smaller exponent, a number that is rounded still has 53 bits. -/
theorem full_of_exponent_lt {n : Nat} {f : Int} (hm : 0 < m)
    (hT : T = max (m.log2 + e - 52) (-1074)) (hk : T = e + k) (hn : GridPoint n f) (hf : f < T) :
    2 ^ 52 ≤ m / 2 ^ k :=
  full_div_of_target hm hT hk (by have := hn.le_exponent; omega)

/-- **What is left after the shift lies between the same grid points as the number.** -/
theorem shifted_between (hm : 0 < m) (hT : T = max (m.log2 + e - 52) (-1074)) (hk : T = e + k)
    {n : Nat} {f : Int} (hn : GridPoint n f) :
    (size m e ≤ size n f → size (shifted m k) T ≤ size n f) ∧
      (size n f ≤ size m e → size n f ≤ size (shifted m k) T) := by
  -- everything is compared at the exponent of the number that is rounded
  have h_at : ∀ a : Nat, size a T = size (a * 2 ^ k) e := size_eq_size hk
  rcases lt_or_ge f T with hf | hf
  · -- the grid point has a smaller exponent, hence lies below both
    have h_full := full_of_exponent_lt hm hT hk hn hf
    have h_below : size n f < size (m / 2 ^ k) T :=
      size_lt_of_exponent_lt hn.lt_two_pow h_full hf
    have h_floor : size (m / 2 ^ k) T ≤ size m e := by
      rw [h_at, size_le_size_iff]
      exact Nat.div_mul_le_self m (2 ^ k)
    constructor
    · intro h
      linarith
    · intro _
      exact h_below.le.trans (size_le_size_iff.mpr (div_le_shifted m k))
  · -- the grid point is a whole number of steps of the exponent that is rounded at
    obtain ⟨j, rfl⟩ : ∃ j : Nat, f = T + j := ⟨(f - T).toNat, by omega⟩
    rw [size_eq_size rfl n]
    constructor
    · intro h
      rw [h_at, size_le_size_iff] at h
      exact size_le_size_iff.mpr (shifted_le h)
    · intro h
      rw [h_at, size_le_size_iff] at h
      exact size_le_size_iff.mpr (le_shifted h)

end Target

/-- A shift to the exponent that a number is rounded at. -/
theorem shiftToTargetExponent_eq {m k : Nat} {e T : Int}
    (hT : T = max (m.log2 + e - 52) (-1074)) (hk : (T - e).toNat = k) :
    shiftToTargetExponent Format.binary64 m e .exact
      = ((⟨m, false, false⟩ : ExtendedMantissa) >>> k, e + k) := by
  rw [shiftToTargetExponent, targetExponent_eq, ← hT, shiftToExponent, hk]
  rfl

/-- **Rounding in two shifts**: one to the exponent of the number, and one more should the rounded
mantissa have grown to 54 bits. -/
theorem roundWithAccuracy_eq (s : Sign) {m k : Nat} {e T : Int}
    (hT : T = max (m.log2 + e - 52) (-1074)) (hk : T = e + k) :
    roundWithAccuracy Format.binary64 s m e .exact =
      if shifted m k < 2 ^ 53 then signed s (shifted m k) T else signed s (2 ^ 52) (T + 1) := by
  have h_le : shifted m k ≤ 2 ^ 53 := by
    have h_up := shifted_le_div m k
    have h_div := div_lt_of_target hT hk
    omega
  have h_first := shiftToTargetExponent_eq hT (k := k) (by omega)
  rw [← hk] at h_first
  simp only [roundWithAccuracy, h_first]
  change signed s (shiftToTargetExponent Format.binary64 (shifted m k) T .exact).1.mantissa
    (shiftToTargetExponent Format.binary64 (shifted m k) T .exact).2 = _
  by_cases h_lt : shifted m k < 2 ^ 53
  · -- nothing has grown: the second shift is by no bits
    have h_log : (shifted m k).log2 ≤ 52 := by
      rcases Nat.eq_zero_or_pos (shifted m k) with h0 | h0
      · simp [h0]
      · have := (Nat.log2_lt (by omega)).mpr h_lt
        omega
    have h_snd : (max ((shifted m k).log2 + T - 52) (-1074) - T).toNat = 0 := by omega
    rw [shiftToTargetExponent_eq rfl h_snd, if_pos h_lt]
    simp [mantissa_shiftRight]
  · -- rounding up has carried through all 53 bits: one more bit, a zero, is shifted out
    have h_eq : shifted m k = 2 ^ 53 := by omega
    have h_snd : (max (((2 ^ 53 : Nat).log2 : Int) + T - 52) (-1074) - T).toNat = 1 := by
      rw [Nat.log2_two_pow]
      omega
    rw [h_eq, shiftToTargetExponent_eq rfl h_snd, if_neg (lt_irrefl _)]
    simp [mantissa_shiftRight]

/-- A number that is rounded has all its bits, unless it is rounded at the least exponent. -/
theorem full_or_least_of_target {m k : Nat} {e T : Int} (hm : 0 < m)
    (hT : T = max (m.log2 + e - 52) (-1074)) (hk : T = e + k) :
    size (2 ^ 52) T ≤ size m e ∨ T = -1074 := by
  by_cases h_least : T = -1074
  · exact Or.inr h_least
  · have h_full := full_div_of_target hm hT hk h_least
    rw [Nat.le_div_iff_mul_le (by positivity)] at h_full
    rw [size_eq_size hk, size_le_size_iff]
    exact Or.inl h_full

/-- A number that is not below `leastFull` has all its bits when it is rounded. -/
theorem full_le_size {m k : Nat} {e T : Int} (hm : 0 < m)
    (hT : T = max (m.log2 + e - 52) (-1074)) (hk : T = e + k) (h : leastFull ≤ size m e) :
    size (2 ^ 52) T ≤ size m e := by
  rcases full_or_least_of_target hm hT hk with h_full | h_least
  · exact h_full
  · rw [h_least]
    exact h

/-- What is left after the shift is half a step from the number at most. -/
theorem size_shifted_half (m k : Nat) {e T : Int} (hk : T = e + k) :
    size m e ≤ size (2 * shifted m k + 1) (T - 1) ∧
      size (2 * shifted m k) (T - 1) ≤ size m e + size 1 (T - 1) := by
  obtain ⟨h_hi, h_lo⟩ := shifted_half m k
  -- all of it is compared at half a step of the number before the shift
  have h_at : ∀ a : Nat, size a (T - 1) = size (a * 2 ^ k) (e - 1) := size_eq_size (by omega)
  have h_double : size m e = size (2 * m) (e - 1) := by
    rw [size_eq_size (show e = e - 1 + (1 : Nat) by omega) m, pow_one, Nat.mul_comm]
  rw [h_at, h_at, h_at, h_double, one_mul, ← size_add, size_le_size_iff, size_le_size_iff]
  exact ⟨h_hi, h_lo⟩

theorem shifted_near {m k : Nat} {e T : Int} (hm : 0 < m)
    (hT : T = max (m.log2 + e - 52) (-1074)) (hk : T = e + k) (h : leastFull ≤ size m e) :
    |size (shifted m k) T - size m e| ≤ size m e / 2 ^ 53 := by
  obtain ⟨h_hi, h_lo⟩ := size_shifted_half m k hk
  exact abs_size_sub_le (full_le_size hm hT hk h) h_lo h_hi

/-- **The nearest number that is left after the shift**: no grid point is nearer. -/
theorem nearest_shifted {m k : Nat} {e T : Int} (hm : 0 < m)
    (hT : T = max (m.log2 + e - 52) (-1074)) (hk : T = e + k) :
    Nearest (size m e) (size (shifted m k) T) := by
  obtain ⟨h_hi, h_lo⟩ := size_shifted_half m k hk
  exact nearest_of_half (full_or_least_of_target hm hT hk) h_lo h_hi

/-- Rounding a number whose exponent is low enough, whichever its sign. -/
theorem exists_roundWithAccuracy {m k : Nat} {e T : Int} (hm : 0 < m)
    (hT : T = max (m.log2 + e - 52) (-1074)) (hk : T = e + k) :
    ∃ n f, RoundsTo (size m e) n f ∧ size n f = size (shifted m k) T ∧
      ∀ s, roundWithAccuracy Format.binary64 s m e .exact = signed s n f := by
  -- the last bit may carry over, but not further than to the next power of two
  have h_le : shifted m k ≤ 2 ^ 53 := by
    have h_up := shifted_le_div m k
    have h_div := div_lt_of_target hT hk
    omega
  by_cases h_lt : shifted m k < 2 ^ 53
  · refine ⟨shifted m k, T, ⟨⟨h_lt, by omega, ?_⟩, ?_, ?_, shifted_near hm hT hk⟩, rfl, fun s => ?_⟩
    · by_cases h_least : T = -1074
      · exact Or.inr h_least
      · exact Or.inl ((full_div_of_target hm hT hk h_least).trans (div_le_shifted m k))
    · exact fun hn => (shifted_between hm hT hk hn).1
    · exact fun hn => (shifted_between hm hT hk hn).2
    · rw [roundWithAccuracy_eq s hT hk, if_pos h_lt]
  · -- after a carry the same size is written with the next exponent
    have h_same : size (2 ^ 52) (T + 1) = size (shifted m k) T := by
      rw [show shifted m k = 2 ^ 52 * 2 ^ 1 by omega]
      exact size_eq_size rfl (2 ^ 52)
    refine ⟨2 ^ 52, T + 1, ⟨⟨by norm_num, by omega, Or.inl le_rfl⟩, ?_, ?_, ?_⟩, h_same,
      fun s => ?_⟩
    · rw [h_same]
      exact fun hn => (shifted_between hm hT hk hn).1
    · rw [h_same]
      exact fun hn => (shifted_between hm hT hk hn).2
    · rw [h_same]
      exact shifted_near hm hT hk
    · rw [roundWithAccuracy_eq s hT hk, if_neg h_lt]

/-- Zeros put behind a mantissa are bits of it. -/
theorem log2_mul_two_pow {m : Nat} (hm : 0 < m) (k : Nat) : (m * 2 ^ k).log2 = m.log2 + k := by
  have h_lo := Nat.log2_self_le (n := m) (by omega)
  have h_hi := Nat.lt_log2_self (n := m)
  rw [Nat.log2_eq_iff (by positivity)]
  constructor
  · rw [pow_add]
    exact Nat.mul_le_mul_right _ h_lo
  · rw [show m.log2 + k + 1 = m.log2 + 1 + k by omega, pow_add]
    exact Nat.mul_lt_mul_of_pos_right h_hi (by positivity)

/-- **Rounding.** A positive number is rounded to a grid point next to it, whichever its sign. -/
theorem exists_round {m : Nat} (hm : 0 < m) (e : Int) :
    ∃ n f, RoundsTo (size m e) n f ∧
      ∀ s, UnpackedFloat.round Format.binary64 s m e = signed s n f := by
  -- first the exponent is lowered, which adds zeros to the mantissa
  obtain ⟨T, hT⟩ : ∃ T, T = max (m.log2 + e - 52) (-1074) := ⟨_, rfl⟩
  obtain ⟨j, hj⟩ : ∃ j, j = (e - T).toNat := ⟨_, rfl⟩
  have h_size : size (m * 2 ^ j) (e - j) = size m e := size_shift m j e
  have h_pos : 0 < m * 2 ^ j := by positivity
  have hT' : T = max ((m * 2 ^ j).log2 + (e - j) - 52) (-1074) := by
    rw [log2_mul_two_pow hm, hT]
    push_cast
    congr 1
    omega
  -- then the bits that are too many are rounded away
  obtain ⟨n, f, h_rounds, -, h_eq⟩ :=
    exists_roundWithAccuracy (k := (T - (e - j)).toNat) h_pos hT' (by omega)
  refine ⟨n, f, h_size ▸ h_rounds, fun s => ?_⟩
  rw [← h_eq s]
  simp only [UnpackedFloat.round, targetExponent_eq, decreaseExponent, ← hT, ← hj, Nat.shiftLeft_eq]

end ClipEdit.Binary64
