import ClipEdit.Decimal.Layout
import Mathlib.Algebra.Order.Field.Power
import Mathlib.Data.Rat.Cast.Order
import Mathlib.Tactic.FieldSimp
import Mathlib.Tactic.Linarith
import Mathlib.Tactic.NormNum
import Mathlib.Tactic.Positivity
import Mathlib.Tactic.Ring

/-!
# Shortest decimals and their layout

A decimal stands for a rational number (`Decimal.toRat`), and this module follows that number through
everything that happens to a decimal before it is printed.

* `toRat_shortest_le` — the shortest decimal is not past the upper end of the interval it was looked
  for in, whether or not trailing zeros were dropped from it;
* `value_layout` — the digits before and behind the point are those of the decimal, wherever the
  point goes;
* `wholeDigits_eq_zero` — a leading zero stands alone.
-/

namespace ClipEdit.Decimal

/-! ### Lists of digits -/

section Digits

variable {ds : List Digit}

theorem value_append (a b : List Digit) : value (a ++ b) = value a * 10 ^ b.length + value b := by
  induction b using List.reverseRecOn with
  | nil => simp [value]
  | append_singleton b d ih =>
    rw [← List.append_assoc, value_append_singleton, value_append_singleton, ih,
      List.length_append, List.length_singleton, pow_succ]
    ring

theorem value_replicate_zero (k : Nat) : value (List.replicate k 0) = 0 := by
  induction k with
  | zero => rfl
  | succ k ih => rw [List.replicate_succ', value_append_singleton, ih]; rfl

theorem value_lt (ds : List Digit) : value ds < 10 ^ ds.length := by
  induction ds using List.reverseRecOn with
  | nil => decide
  | append_singleton ds d ih =>
    have h_digit := d.isLt
    rw [value_append_singleton, List.length_append, List.length_singleton, pow_succ]
    omega

theorem digits_ne_nil (n : Nat) : digits n ≠ [] := by
  rw [digits]
  split <;> simp

theorem digits_zero : digits 0 = [.zero] := by
  rw [digits]
  rfl

/-- Only zero begins with a zero. -/
theorem eq_zero_of_head? {n : Nat} (h : (digits n).head? = some .zero) : n = 0 := by
  induction n using Nat.strongRecOn with
  | ind n ih =>
    rw [digits] at h
    split at h
    · exact congrArg Fin.val (Option.some.inj h)
    · next h_large =>
      rw [List.head?_append_of_ne_nil _ (digits_ne_nil _)] at h
      have h_quotient := ih (n / 10) (by omega) h
      omega

end Digits

/-! ### Decimals -/

/-- The rational number that a decimal stands for. -/
def toRat (d : Decimal) : ℚ := d.coefficient * 10 ^ d.exponent

/-- Trailing zeros only move from the coefficient into the exponent. -/
theorem toRat_trim (d : Decimal) : d.trim.toRat = d.toRat := by
  induction d using trim.induct with
  | case1 d h => rw [trim, dif_pos h, toRat, toRat, h, Nat.cast_zero, zero_mul, zero_mul]
  | case2 d h h_ten ih =>
    rw [trim, dif_neg h, if_pos h_ten, ih]
    have h_coefficient : d.coefficient = 10 * (d.coefficient / 10) := by omega
    rw [toRat, toRat, h_coefficient, Nat.mul_div_cancel_left _ (by norm_num),
      zpow_add₀ (by norm_num : (10 : ℚ) ≠ 0)]
    push_cast
    ring
  | case3 d h h_ten => rw [trim, dif_neg h, if_neg h_ten]

/-- **A decimal whose only zero stands for nothing.** -/
def Plain (d : Decimal) : Prop := d.coefficient = 0 → d.exponent = 0

theorem plain_trim (d : Decimal) : d.trim.Plain := by
  induction d using trim.induct with
  | case1 d h =>
    rw [trim, dif_pos h]
    exact fun _ => rfl
  | case2 d h h_ten ih => rwa [trim, dif_neg h, if_pos h_ten]
  | case3 d h h_ten =>
    rw [trim, dif_neg h, if_neg h_ten]
    exact fun h_zero => absurd h_zero h

/-! ### Looking for the shortest one -/

/-- The rational number that a ratio stands for. -/
def Ratio.toRat (r : Ratio) : ℚ := r.numerator / r.denominator

theorem Ratio.toRat_ofBinary (m : Nat) (q : Int) :
    (Ratio.ofBinary m q).toRat = m * 2 ^ q ∧ 0 < (Ratio.ofBinary m q).denominator := by
  cases q with
  | ofNat n =>
    refine ⟨?_, Nat.one_pos⟩
    simp [Ratio.ofBinary, Ratio.toRat]
  | negSucc n =>
    refine ⟨?_, Nat.pow_pos (by norm_num)⟩
    simp [Ratio.ofBinary, Ratio.toRat, zpow_negSucc, div_eq_mul_inv]

theorem Ratio.toRat_steps (r : Ratio) (e : Int) : (r.steps e).toRat = r.toRat / 10 ^ e := by
  cases e with
  | ofNat n => simp [Ratio.steps, Ratio.toRat, div_div]
  | negSucc n =>
    simp [Ratio.steps, Ratio.toRat, zpow_negSucc]
    ring

theorem Ratio.denominator_steps_pos {r : Ratio} (h : 0 < r.denominator) (e : Int) :
    0 < (r.steps e).denominator := by
  cases e with
  | ofNat n => exact Nat.mul_pos h (Nat.pow_pos (by norm_num))
  | negSucc n => exact h

/-- A grid point that lies in an interval is not past its upper end. -/
theorem Interval.le_upper {i : Interval} {d : Nat} {e : Int} (h : i.holds d e = true)
    (h_pos : 0 < i.upper.denominator) : (d : ℚ) * 10 ^ e ≤ i.upper.toRat := by
  have h_le : d * (i.upper.steps e).denominator ≤ (i.upper.steps e).numerator := by
    unfold Interval.holds at h
    -- the end may or may not belong to the interval
    split at h
    · simp only [Bool.and_eq_true, decide_eq_true_eq] at h
      exact h.2
    · simp only [Bool.and_eq_true, decide_eq_true_eq] at h
      exact h.2.le
  have h_steps : (0 : ℚ) < (i.upper.steps e).denominator :=
    Nat.cast_pos.mpr (Ratio.denominator_steps_pos h_pos e)
  -- both sides over the one denominator
  have h_cast : (d : ℚ) * (i.upper.steps e).denominator ≤ (i.upper.steps e).numerator := by
    exact_mod_cast h_le
  rw [← le_div_iff₀ (by positivity), ← Ratio.toRat_steps]
  exact (le_div_iff₀ h_steps).mpr h_cast

/-- What is found on a grid lies in the interval. -/
theorem holds_of_nearestOn {value : Ratio} {i : Interval} {tie : Tie} {e : Int} {d : Nat}
    (h : nearestOn value i tie e = some d) : i.holds d e = true := by
  simp only [nearestOn] at h
  -- both neighbours lie in the interval, or one of them
  split at h
  · next h_both =>
    rw [Bool.and_eq_true, Bool.and_eq_true] at h_both
    rw [← Option.some.inj h]
    split
    · exact h_both.2
    · exact h_both.1.1
  · split at h
    · next h_down =>
      rw [Bool.and_eq_true] at h_down
      exact Option.some.inj h ▸ h_down.1
    · split at h
      · next h_up => exact Option.some.inj h ▸ h_up
      · exact absurd h (by simp)

theorem holds_of_shortestOn {value : Ratio} {i : Interval} {tie : Tie} {k : Int}
    {lengths : List Nat} {d : Decimal} (h : shortestOn value i tie k lengths = some d) :
    i.holds d.coefficient d.exponent = true := by
  induction lengths with
  | nil => exact absurd h (by simp [shortestOn])
  | cons length lengths ih =>
    simp only [shortestOn] at h
    split at h
    · next c h_found => exact Option.some.inj h ▸ holds_of_nearestOn h_found
    · exact ih h

theorem plain_shortest (m : Nat) (q : Int) (tie : Tie) : (shortest m q tie).Plain := by
  simp only [shortest]
  split
  · exact plain_trim _
  · exact fun _ => rfl

/-- **The shortest decimal is not past the interval around the number.** -/
theorem toRat_shortest_le (m : Nat) (q : Int) (tie : Tie) :
    (shortest m q tie).toRat ≤ (4 * m + 2) * 2 ^ (q - 2) := by
  simp only [shortest]
  split
  · next d h_found =>
    obtain ⟨h_upper, h_pos⟩ := Ratio.toRat_ofBinary (4 * m + 2) (q - 2)
    have h_le := Interval.le_upper (holds_of_shortestOn h_found) h_pos
    push_cast at h_upper
    rw [toRat_trim]
    exact h_le.trans_eq h_upper
  · simp only [toRat, Nat.cast_zero, zero_mul]
    positivity

/-! ### Layout -/

/-- A leading zero stands alone. -/
theorem wholeDigits_eq_zero {d : Decimal} (h : d.Plain)
    (h_head : d.wholeDigits.head? = some .zero) : d.wholeDigits = [.zero] := by
  unfold wholeDigits at h_head ⊢
  split
  · next n h_point =>
    rw [h_point] at h_head
    have h_zero : d.coefficient = 0 := by
      apply eq_zero_of_head?
      obtain ⟨a, ds, h_digits⟩ := List.exists_cons_of_ne_nil (digits_ne_nil d.coefficient)
      rw [h_digits] at h_head ⊢
      exact h_head
    -- a zero has no exponent, so the point stands right behind its only digit
    rw [pointPosition, h_zero, h h_zero, digits_zero] at h_point
    obtain rfl : n = 0 := by
      simp only [List.length_singleton, Int.ofNat_eq_natCast] at h_point
      omega
    rw [h_zero, digits_zero]
    rfl
  · rfl

theorem wholeDigits_ne_nil (d : Decimal) : d.wholeDigits ≠ [] := by
  unfold wholeDigits
  split
  · obtain ⟨a, ds, h_digits⟩ := List.exists_cons_of_ne_nil (digits_ne_nil d.coefficient)
    rw [h_digits]
    exact List.cons_ne_nil a _
  · exact List.cons_ne_nil _ _

/-- With as many digits behind the point as the exponent asks for, the coefficient is left. -/
theorem toRat_mul_pow {d : Decimal} {k : Nat} (h : d.exponent = -(k : Int)) :
    d.toRat * 10 ^ k = d.coefficient := by
  rw [toRat, h, zpow_neg, zpow_natCast, mul_assoc, inv_mul_cancel₀ (by positivity), mul_one]

/-- **The digits before and behind the point are those of the decimal.** -/
theorem value_layout (d : Decimal) :
    (value (d.wholeDigits ++ d.fractionDigits) : ℚ) = d.toRat * 10 ^ d.fractionDigits.length := by
  obtain ⟨ds, h_digits⟩ : ∃ ds, ds = digits d.coefficient := ⟨_, rfl⟩
  have h_value : value ds = d.coefficient := h_digits ▸ value_digits d.coefficient
  have h_point : d.pointPosition = ds.length + d.exponent := h_digits ▸ rfl
  unfold wholeDigits fractionDigits
  rw [← h_digits]
  rcases h_position : d.pointPosition with (_ | n) | n
  · -- the point stands right before the digits
    have h_exponent : d.exponent = -(ds.length : Int) := by
      simp only [Int.ofNat_eq_natCast] at h_position
      omega
    dsimp only
    rw [List.drop_zero, toRat_mul_pow h_exponent, value_append, h_value,
      show value [0] = 0 from rfl, zero_mul, zero_add]
  · dsimp only
    simp only [Int.ofNat_eq_natCast] at h_position
    rcases le_or_gt (n + 1) ds.length with h_le | h_gt
    · -- the point stands among the digits
      have h_exponent : d.exponent = -((ds.length - (n + 1) : Nat) : Int) := by omega
      rw [Nat.sub_eq_zero_of_le h_le, List.replicate_zero, List.append_nil, List.take_append_drop,
        h_value, List.length_drop, toRat_mul_pow h_exponent]
    · -- zeros fill the place up to the point
      have h_exponent : d.exponent = ((n + 1 - ds.length : Nat) : Int) := by omega
      rw [List.take_of_length_le h_gt.le, List.drop_eq_nil_of_le h_gt.le, List.append_nil,
        value_append, value_replicate_zero, h_value, List.length_replicate, toRat, h_exponent,
        zpow_natCast, List.length_nil, pow_zero, mul_one]
      push_cast
      ring
  · -- zeros fill the place behind the point
    have h_exponent : d.exponent = -((n + 1 + ds.length : Nat) : Int) := by
      rw [Int.negSucc_eq] at h_position
      push_cast
      omega
    dsimp only
    rw [List.length_append, List.length_replicate, toRat_mul_pow h_exponent, value_append,
      value_append, value_replicate_zero, h_value, show value [0] = 0 from rfl, zero_mul, zero_mul,
      zero_add, zero_add]

end ClipEdit.Decimal
