import ClipEdit.Proofs.Scalar.Frame
import ClipEdit.Proofs.Scalar.Overflow

/-!
# Small relative errors

An operation that rounds once to the nearest binary64 number is off by `2^-53` of its exact result
and by no more: what it stores is `Nearly` that result. Where an argument needs nothing else of the
arithmetic, it can be made for all scalars that can count frames (`Counting`) and round well enough.

Binary64 numbers do both. Their relative error is small wherever a result has all its bits
(`Rounded.nearly`). A difference may be too small for that, but then it is exact, because both numbers
are whole multiples of the smallest one (`nearly_sub`).
-/

namespace ClipEdit

open Scalar

namespace Scalar

/-- **A scalar that is nearly a quantity**: it is finite, and off by `2^-53` of the quantity at
most. -/
structure Nearly {α : Type} [Scalar α] [Gauge α] (q : ℚ) (x : α) : Prop where
  isFinite : isFinite x = true
  abs_sub_le : |Gauge.value x - q| ≤ |q| / 2 ^ 53

/-- What is nearly a quantity is at least half of it and at most twice as much. -/
theorem Nearly.value_mem {α : Type} [Scalar α] [Gauge α] {q : ℚ} {x : α} (h : Nearly q x)
    (hq : 0 ≤ q) : q / 2 ≤ Gauge.value x ∧ Gauge.value x ≤ 2 * q := by
  obtain ⟨h_lo, h_hi⟩ := abs_le.mp h.abs_sub_le
  rw [abs_of_nonneg hq] at h_lo h_hi
  constructor <;> linarith

/-- **Scalars that can count frames**: whole numbers up to the largest frame are exact, and so is
rounding to a whole number and turning one into a frame. Of decimal literals it is enough that
`0.000001` is nearly what it says. -/
class Counting (α : Type) [Scalar α] extends Gauge α where
  natCast_exact {n : Nat} : n ≤ Frame.limit → isFinite (n : α) = true ∧ value (n : α) = n
  roundWhole_exact {x : α} : isFinite x = true →
    isFinite (roundWhole x) = true ∧ value (roundWhole x) = Exact.roundWhole (value x)
  toFrame_exact {x : α} : isFinite x = true → toFrame x = Exact.toFrame (value x)
  nearly_millionth : Nearly (1 / 10 ^ 6) (1e-6 : α)

end Scalar

/-! ### Exact numbers -/

instance : Counting ℚ where
  natCast_exact _ := ⟨rfl, rfl⟩
  roundWhole_exact _ := ⟨rfl, rfl⟩
  toFrame_exact _ := rfl
  nearly_millionth := ⟨rfl, by
    change |(1e-6 : ℚ) - 1 / 10 ^ 6| ≤ _
    norm_num⟩

/-! ### Binary64 numbers -/

namespace Binary64

open Float.Model Float.Model.UnpackedFloat

variable {q : ℚ} {x y : Float}

theorem leastFull_le : leastFull ≤ 1 / 2 ^ 33 := by
  calc leastFull ≤ size (2 ^ 52) (-85) :=
        (size_lt_of_exponent_lt (by norm_num) le_rfl (by norm_num)).le
    _ = 1 / 2 ^ 33 := by norm_num [size]

/-- **What is rounded once is nearly exact**, if it is zero or has all its bits. -/
theorem Rounded.nearly (h : Rounded q x) (hx : x.isFinite = true) (hq : q = 0 ∨ leastFull ≤ |q|) :
    Nearly q x := by
  refine ⟨hx, ?_⟩
  rcases hq with rfl | h_full
  · have h_zero : value (parts x) = 0 := h.eq_value (z := .zero .positive) trivial rfl
    change |value (parts x) - 0| ≤ _
    rw [h_zero]
    simp
  · have h_near := h.near
    rw [(inFormat_parts x).cutOff_eq] at h_near
    exact h_near hx h_full

/-- A quotient by a number that is not below one stays finite. -/
theorem nearly_div (hx : x.isFinite = true) (hy : y.isFinite = true) (h_one : 1 ≤ value (parts y))
    (hq : value (parts x) / value (parts y) = 0 ∨ leastFull ≤ |value (parts x) / value (parts y)|) :
    Nearly (value (parts x) / value (parts y)) (x / y) :=
  (rounded_div hx hy (by linarith)).nearly (isFinite_div_of_one_le hx hy h_one) hq

theorem nearly_mul (hx : x.isFinite = true) (hy : y.isFinite = true)
    (h_le : |value (parts x) * value (parts y)| ≤ 2 ^ 1023)
    (hq : value (parts x) * value (parts y) = 0 ∨ leastFull ≤ |value (parts x) * value (parts y)|) :
    Nearly (value (parts x) * value (parts y)) (x * y) := by
  have h_rounded := rounded_mul hx hy
  exact h_rounded.nearly ((h_rounded.below le_rfl h_le).isFinite le_rfl) hq

/-- A finite number is a whole multiple of the smallest one. -/
theorem exists_value_eq {u : UnpackedFloat} (h : InFormat u) (h_fin : u.isFinite = true) :
    ∃ k : ℤ, value u = k * (2 : ℚ) ^ (-1074 : ℤ) := by
  rcases zero_or_finite h_fin with ⟨s, rfl⟩ | ⟨s, m, e, hm, rfl⟩
  · exact ⟨0, by simp⟩
  · obtain ⟨k, hk⟩ : ∃ k : Nat, e = -1074 + k :=
      ⟨(e + 1074).toNat, by have := h.1.le_exponent; omega⟩
    refine ⟨s.apply (m * 2 ^ k : Nat), ?_⟩
    have h_size := size_eq_size hk m
    unfold size at h_size
    rw [value_finite_eq, size, h_size]
    cases s <;> simp [unit, Sign.apply]

/-- A whole multiple of the smallest number that is too small to have all its bits is a number of the
format. -/
theorem exists_inFormat_of_lt {k : ℤ} (h : |(k : ℚ) * (2 : ℚ) ^ (-1074 : ℤ)| < leastFull) :
    ∃ z, InFormat z ∧ value z = k * (2 : ℚ) ^ (-1074 : ℤ) := by
  have h_pow : (0 : ℚ) < (2 : ℚ) ^ (-1074 : ℤ) := by positivity
  -- so many units fit into the mantissa
  have h_abs : k.natAbs < 2 ^ 52 := by
    rw [abs_mul, abs_of_pos h_pow, leastFull, size, mul_lt_mul_iff_left₀ h_pow, ← Int.cast_abs,
      Int.abs_eq_natAbs] at h
    exact_mod_cast h
  -- the sign is stored apart from the mantissa
  rcases lt_trichotomy k 0 with h_neg | rfl | h_pos
  · refine ⟨.finite .negative k.natAbs (-1074) (by omega),
      ⟨⟨by omega, le_rfl, Or.inr rfl⟩, by norm_num⟩, ?_⟩
    have h_cast : ((k.natAbs : ℤ) : ℚ) = -k := by
      rw [Int.ofNat_natAbs_of_nonpos h_neg.le, Int.cast_neg]
    rw [value_finite_eq, unit, neg_one_mul, size, ← neg_mul, ← Int.cast_natCast, h_cast, neg_neg]
  · exact ⟨.zero .positive, trivial, by simp⟩
  · refine ⟨.finite .positive k.natAbs (-1074) (by omega),
      ⟨⟨by omega, le_rfl, Or.inr rfl⟩, by norm_num⟩, ?_⟩
    have h_cast : ((k.natAbs : ℤ) : ℚ) = k := by rw [Int.natAbs_of_nonneg h_pos.le]
    rw [value_finite_eq, unit, one_mul, size, ← h_cast, Int.cast_natCast]

/-- **Differences are nearly exact**, however small they are. -/
theorem nearly_sub (hx : x.isFinite = true) (hy : y.isFinite = true)
    (h_le : |value (parts x) - value (parts y)| ≤ 2 ^ 1023) :
    Nearly (value (parts x) - value (parts y)) (x - y) := by
  have h_rounded := rounded_sub hx hy
  have h_fin : (x - y).isFinite = true := (h_rounded.below le_rfl h_le).isFinite le_rfl
  rcases le_or_gt leastFull |value (parts x) - value (parts y)| with h_full | h_small
  · exact h_rounded.nearly h_fin (Or.inr h_full)
  · -- a difference that is too small is a number of the format itself
    obtain ⟨k, hk⟩ := exists_value_eq (inFormat_parts x) hx
    obtain ⟨l, hl⟩ := exists_value_eq (inFormat_parts y) hy
    have h_sub : value (parts x) - value (parts y) = ((k - l : ℤ) : ℚ) * (2 : ℚ) ^ (-1074 : ℤ) := by
      rw [hk, hl, Int.cast_sub, sub_mul]
    rw [h_sub] at h_small
    obtain ⟨z, hz, h_value⟩ := exists_inFormat_of_lt h_small
    refine ⟨h_fin, ?_⟩
    change |value (parts (x - y)) - _| ≤ _
    rw [h_rounded.eq_value hz (h_value.trans h_sub.symm), sub_self, abs_zero]
    positivity

end Binary64

open Binary64 in
instance : Counting Float where
  natCast_exact {n} h := by
    have h_lt : n < 2 ^ 53 := lt_of_le_of_lt h (by decide)
    obtain ⟨h_fin, -⟩ := value_signed_ofNat .positive h_lt
    exact ⟨h_fin, value_ofNat h_lt⟩
  roundWhole_exact := Binary64.roundWhole_exact
  toFrame_exact := Binary64.toFrame_exact
  nearly_millionth := ⟨by decide, by decide +kernel⟩

end ClipEdit
