import ClipEdit.Proofs.Scalar.Overflow

/-!
# Lengths

Sides, places in a frame and times in a clip are numbers from zero up, and every one of them is
brought into a range that ends at a side or at the duration. `Length k` says that of a number, with a
power of two that it does not pass. It goes through what the editor does with such numbers:

* **ranges** — whatever is brought between two lengths is one, a number or not (`Length.within`);
* **differences** — what a size leaves of a side is one, and so is half a side (`Length.room`,
  `Length.half`);
* **thousandths** — rounding gives up one power of two (`Length.roundMilli`), and what was rounded
  can be rounded once more (`Length.finite_twice`).
-/

namespace ClipEdit

open Scalar Gauge
open Binary64 hiding value value_zero
open Float.Model

/-- **A length**: a number that is not negative, and not past a power of two. -/
structure Length (k : Nat) (x : Float) : Prop where
  below : Below k x
  nonneg : 0 ≤ value x

namespace Length

variable {k : Nat} {x lo hi side size : Float}

theorem mono {j : Nat} (h : Length k x) (hk : k ≤ j) : Length j x := ⟨h.below.mono hk, h.nonneg⟩

theorem finite (h : Length k x) (hk : k ≤ 1023) : x.isFinite = true := h.below.isFinite hk

/-- What is not negative and not past a length is one. -/
theorem of_le (hx : IsNumber x) (h_nonneg : 0 ≤ value x) (h_hi : Length k hi)
    (h_le : value x ≤ value hi) : Length k x := by
  have h_pow := (abs_le.mp h_hi.below.le_pow).2
  exact ⟨⟨hx, (abs_of_nonneg h_nonneg).trans_le (h_le.trans h_pow)⟩, h_nonneg⟩

theorem of_value_eq {n : Nat} (hx : isFinite x = true) (h_value : value x = n) (h : n ≤ 2 ^ k) :
    Length k x := by
  have h_nonneg : 0 ≤ value x := h_value ▸ Nat.cast_nonneg n
  refine ⟨⟨isNumber_of_isFinite hx, (abs_of_nonneg h_nonneg).trans_le ?_⟩, h_nonneg⟩
  exact h_value.trans_le (by exact_mod_cast h)

theorem zero (k : Nat) : Length k 0 :=
  of_value_eq (n := 0) isFinite_zero (value_zero.trans Nat.cast_zero.symm) (Nat.zero_le _)

/-- Between two lengths everything is one. -/
theorem within (h_lo : Length k lo) (h_hi : Length k hi) (x : Float) :
    Length k (within x lo hi) := by
  obtain ⟨h_num, h_least, h_le⟩ := isNumber_within h_lo.below.isNumber h_hi.below.isNumber x
  exact of_le h_num ((le_min h_lo.nonneg h_hi.nonneg).trans h_least) h_hi h_le

/-- What a size leaves of a side. -/
theorem room (h_side : Length k side) (hk : k ≤ 1023) (h_size : size.isFinite = true)
    (h_nonneg : 0 ≤ value size) : Length k (atLeast (side - size) 0) := by
  have h_sub := rounded_sub (h_side.finite hk) h_size
  have h_le : value (side - size) ≤ value side :=
    h_sub.value_le (inFormat_parts side) (sub_le_self _ h_nonneg)
  -- a size that is larger than the side leaves zero, which is a length as well
  obtain ⟨h_num, h_least, h_eq⟩ := isNumber_atLeast (isNumber_zero (α := Float)) (side - size)
  refine of_le h_num (value_zero.symm.trans_le h_least) h_side ?_
  rw [h_eq h_sub.isNumber, value_zero]
  exact max_le h_le h_side.nonneg

/-- Half of a side. -/
theorem half (h : Length (k + 1) side) (hk : k + 1 ≤ 1023) : Length k (side / 2.0) := by
  have h_two : value (2.0 : Float) = 2 := by decide +kernel
  have h_div : Rounded (value side / value (2.0 : Float)) (side / 2.0) :=
    rounded_div (h.finite hk) (by decide) (h_two.trans_ne (by norm_num))
  have h_nonneg : 0 ≤ value side / 2 := div_nonneg h.nonneg (by norm_num)
  rw [h_two] at h_div
  refine ⟨h_div.below (by omega) ?_, h_div.le_value (z := .zero .positive) trivial h_nonneg⟩
  rw [abs_of_nonneg h_nonneg, div_le_iff₀ (by norm_num), ← pow_succ]
  exact (abs_le.mp h.below.le_pow).2

/-- A length in thousandths. -/
theorem roundMilli (h : Length k x) (hk : k ≤ 1013) : Length (k + 1) (Scalar.roundMilli x) := by
  have h_below := h.below.roundMilli hk
  have h_mul := (isFinite_roundMilli x).mp (h_below.isFinite (by omega))
  exact ⟨h_below, value_roundMilli_nonneg h_mul (h.finite (by omega)) h.nonneg⟩

/-- What was brought into a range of lengths and rounded is rounded to finite thousandths. -/
theorem finite_twice (h : Length 1013 x) :
    isFinite (Scalar.roundMilli (Scalar.roundMilli x)) = true :=
  h.below.roundMilli_twice.2

end Length

end ClipEdit
