import ClipEdit.Proofs.Decimal.Layout
import ClipEdit.Proofs.Json.Lexeme
import ClipEdit.Proofs.Scalar.Overflow
import Mathlib.Data.Nat.Size

/-!
# Numbers that are written and read

What the editor writes for a count and for a finite binary64 number is a well-formed number
(`wellFormed_ofNat`, `wellFormed_ofFloat?`), and what it writes is read again. For a count that is
plain (`toNat?_ofNat`). For a binary64 number it is a matter of size: the reader multiplies a
significand by a power of ten, and each of the two and the product is rounded, so it could overflow
where the number itself does not. `exists_toFloat?` says that this does not happen up to `2 ^ 1015`.

The number that is written is followed as a rational (`magnitude`): the layout keeps it
(`magnitude_ofDecimal`), and what the reader takes from it is at most twice as large
(`significand_le`).
-/

namespace ClipEdit.Json.Number

open Decimal (Digit)

variable {n : Number} {d : Decimal} {x : Float}

/-! ### Well-formed numbers -/

theorem wellFormed_ofNat (k : Nat) : (ofNat k).WellFormed where
  whole_ne_nil := Decimal.digits_ne_nil k
  whole_eq_zero h := by
    change Decimal.digits k = _
    rw [Decimal.eq_zero_of_head? h, Decimal.digits_zero]
  power_ne_nil _ _ h := absurd h (by simp [ofNat])

theorem toNat?_ofNat (k : Nat) :
    (ofNat k).toNat? = if k ≤ significandLimit then some k else none := by
  have h_value : Decimal.value (Decimal.digits k) = k := Decimal.value_digits k
  simp only [toNat?, ofNat, List.isEmpty_nil, Bool.not_true, Option.isSome_none, Bool.or_self,
    Bool.false_eq_true, if_false, h_value]

theorem wellFormed_ofDecimal (negative : Bool) (h : d.Plain) :
    (ofDecimal negative d).WellFormed := by
  simp only [ofDecimal]
  split
  · exact ⟨d.wholeDigits_ne_nil, Decimal.wholeDigits_eq_zero h, fun _ _ h => absurd h (by simp)⟩
  · obtain ⟨a, ds, h_digits⟩ := List.exists_cons_of_ne_nil (Decimal.digits_ne_nil d.coefficient)
    rw [h_digits]
    refine ⟨List.cons_ne_nil a _, ?_, ?_⟩
    · -- before the point there is one digit, whichever it is
      intro h_head
      exact congrArg (fun a => [a]) (Option.some.inj h_head)
    · rintro sign power ⟨⟩
      exact Decimal.digits_ne_nil _

theorem wellFormed_ofFloat? (h : ofFloat? x = some n) : n.WellFormed := by
  unfold ofFloat? at h
  split at h
  · exact absurd h (by simp)
  · exact absurd h (by simp)
  · rw [← Option.some.inj h]
    exact ⟨List.cons_ne_nil _ _, fun _ => rfl, fun _ _ h => absurd h (by simp)⟩
  · rw [← Option.some.inj h]
    exact wellFormed_ofDecimal _ (Decimal.plain_shortest _ _ _)

/-! ### The number that is written -/

/-- The number that is written, without its sign. -/
def magnitude (n : Number) : ℚ :=
  Decimal.value (n.whole ++ n.fraction) / 10 ^ n.fraction.length * 10 ^ n.writtenExponent

/-- An exponent is written as a sign and digits. -/
theorem writtenExponent_some (negative : Bool) (whole fraction : List Digit) (k : Int) :
    writtenExponent ⟨negative, whole, fraction, some (if k < 0 then .minus else .plus,
      Decimal.digits k.natAbs)⟩ = k := by
  have h_power : (Decimal.value (Decimal.digits k.natAbs) : Int) = |k| := by
    rw [Decimal.value_digits, Int.natCast_natAbs]
  split
  · next h_neg => simp only [writtenExponent, h_power, abs_of_neg h_neg, neg_neg]
  · next h_nonneg => simp only [writtenExponent, h_power, abs_of_nonneg (not_lt.mp h_nonneg)]

/-- **The layout keeps the number**, with an exponent or without one. -/
theorem magnitude_ofDecimal (negative : Bool) (d : Decimal) :
    (ofDecimal negative d).magnitude = d.toRat := by
  simp only [ofDecimal]
  split
  · -- written out in full, without an exponent
    have h_layout := d.value_layout
    simp only [magnitude, writtenExponent, zpow_zero, mul_one]
    rw [div_eq_iff (by positivity)]
    cases h_fraction : d.fractionDigits with
    | nil =>
      -- a whole number is written with a zero behind the point
      rw [h_fraction] at h_layout
      rw [List.append_nil, List.length_nil, pow_zero, mul_one] at h_layout
      rw [List.isEmpty_nil, if_pos rfl, Decimal.value_append_singleton, List.length_singleton,
        pow_one, ← h_layout]
      push_cast
      rw [show ((Digit.zero : Digit).val : ℚ) = 0 from Nat.cast_zero]
      ring
    | cons a ds =>
      rw [h_fraction] at h_layout
      exact h_layout
  · -- one digit before the point, and the exponent makes up for the others
    have h_length : 1 ≤ (Decimal.digits d.coefficient).length :=
      List.length_pos_of_ne_nil (Decimal.digits_ne_nil _)
    rw [magnitude, writtenExponent_some]
    dsimp only
    rw [List.take_append_drop, Decimal.value_digits, List.length_drop, Decimal.pointPosition,
      div_eq_mul_inv, ← zpow_natCast, ← zpow_neg, mul_assoc,
      ← zpow_add₀ (by norm_num : (10 : ℚ) ≠ 0), Decimal.toRat]
    congr 2
    omega

/-! ### What the reader takes -/

/-- **A significand takes digits as long as they fit**, and it is not zero when it leaves some. -/
theorem exists_accumulate (s : Nat) (ds : List Digit) :
    ∃ taken, ds = taken ++ (accumulate s ds).2 ∧
      (accumulate s ds).1 = s * 10 ^ taken.length + Decimal.value taken ∧
      (s ≤ significandLimit → (accumulate s ds).1 ≤ significandLimit) ∧
      ((accumulate s ds).2 ≠ [] → 0 < (accumulate s ds).1) := by
  induction ds generalizing s with
  | nil => exact ⟨[], rfl, by simp [accumulate, Decimal.value], id, fun h => absurd rfl h⟩
  | cons d ds ih =>
    have h_digit := d.isLt
    rw [accumulate]
    split
    · next h_full =>
      -- the significand is full, and all digits from here on are dropped
      refine ⟨[], rfl, by simp [Decimal.value], id, fun _ => ?_⟩
      simp only [significandLimit] at h_full
      change 0 < s
      omega
    · next h_fits =>
      -- one more digit is taken in
      obtain ⟨taken, h_ds, h_value, h_limit, h_pos⟩ := ih (10 * s + d.val)
      refine ⟨d :: taken, by rw [List.cons_append, ← h_ds], ?_, fun _ => h_limit (by omega), h_pos⟩
      have h_cons : Decimal.value (d :: taken)
          = d.val * 10 ^ taken.length + Decimal.value taken := by
        rw [← List.singleton_append, Decimal.value_append]
        simp [Decimal.value]
      rw [h_value, h_cons, List.length_cons, pow_succ]
      ring

/-- **The significand**: the first digits of the whole part and of the part behind the point, with
the power of ten that makes up for the place of the last one. -/
theorem exists_significand (n : Number) :
    ∃ taken dropped taken' unread, n.whole = taken ++ dropped ∧ n.fraction = taken' ++ unread ∧
      n.significand = (Decimal.value taken * 10 ^ taken'.length + Decimal.value taken',
        (dropped.length : Int) - (taken'.length : Int)) ∧
      n.significand.1 ≤ significandLimit ∧ (dropped ≠ [] → 0 < Decimal.value taken) := by
  -- the digits of the whole part come first, and those of the fraction go on from there
  obtain ⟨taken, h_whole, h_first, h_limit, h_pos⟩ := exists_accumulate 0 n.whole
  obtain ⟨taken', h_fraction, h_second, h_limit', -⟩ :=
    exists_accumulate (accumulate 0 n.whole).1 n.fraction
  -- how far the point was moved is a difference of lengths, which has to be a natural number
  have h_length := congrArg List.length h_fraction
  rw [List.length_append] at h_length
  rw [zero_mul, zero_add] at h_first
  have h_significand : n.significand = ((accumulate (accumulate 0 n.whole).1 n.fraction).1,
      ((accumulate 0 n.whole).2.length : Int) - ((n.fraction.length
        - (accumulate (accumulate 0 n.whole).1 n.fraction).2.length : Nat) : Int)) := rfl
  refine ⟨taken, _, taken', _, h_whole, h_fraction, ?_, ?_, ?_⟩
  · rw [h_significand, h_second, h_first, show n.fraction.length
      - (accumulate (Decimal.value taken) n.fraction).2.length = taken'.length by
        rw [← h_first]; omega]
  · rw [h_significand]
    exact h_limit' (h_limit (Nat.zero_le _))
  · rw [← h_first]
    exact h_pos

/-- Digits behind the point, as a fraction; those that are left out do not make it larger. -/
theorem fraction_le (taken unread : List Digit) :
    (Decimal.value taken : ℚ) / 10 ^ taken.length
      ≤ Decimal.value (taken ++ unread) / 10 ^ (taken ++ unread).length := by
  rw [Decimal.value_append, List.length_append, pow_add,
    div_le_div_iff₀ (by positivity) (by positivity)]
  push_cast
  have h_unread : (0 : ℚ) ≤ Decimal.value unread * 10 ^ taken.length := by positivity
  nlinarith

/-- **What the reader takes is at most twice what is written.** -/
theorem significand_le (n : Number) :
    (n.significand.1 : ℚ) * 10 ^ (n.significand.2 + n.writtenExponent) ≤ 2 * n.magnitude := by
  obtain ⟨taken, dropped, taken', unread, h_whole, h_fraction, h_significand, -, h_pos⟩ :=
    n.exists_significand
  -- the digits that were taken behind the point, as a fraction of one
  obtain ⟨a, ha⟩ : ∃ a : ℚ, a = Decimal.value taken' / 10 ^ taken'.length := ⟨_, rfl⟩
  have ha_nonneg : 0 ≤ a := by
    rw [ha]
    positivity
  have ha_le : a ≤ 1 := by
    rw [ha, div_le_one (by positivity)]
    exact_mod_cast (Decimal.value_lt taken').le
  have h_taken : (n.significand.1 : ℚ) * 10 ^ n.significand.2
      = (Decimal.value taken + a) * 10 ^ dropped.length := by
    rw [h_significand]
    dsimp only
    rw [zpow_sub₀ (by norm_num : (10 : ℚ) ≠ 0), zpow_natCast, zpow_natCast, ha]
    push_cast
    field_simp
  -- digits that were dropped or not read only make the number as written larger
  have h_written : (Decimal.value taken : ℚ) * 10 ^ dropped.length + a
      ≤ Decimal.value (n.whole ++ n.fraction) / 10 ^ n.fraction.length := by
    have h_le := fraction_le taken' unread
    rw [← ha, ← h_fraction] at h_le
    rw [Decimal.value_append, h_whole, Decimal.value_append]
    push_cast
    rw [add_div, mul_div_cancel_right₀ _ (by positivity)]
    have h_dropped_nonneg : (0 : ℚ) ≤ Decimal.value dropped := Nat.cast_nonneg _
    linarith
  -- the fraction counts for more once digits before the point are dropped, but at most twice
  have h_twice : (Decimal.value taken + a) * 10 ^ dropped.length
      ≤ 2 * (Decimal.value taken * 10 ^ dropped.length + a) := by
    have h_value : (0 : ℚ) ≤ Decimal.value taken := Nat.cast_nonneg _
    by_cases h_nil : dropped = []
    · rw [h_nil, List.length_nil, pow_zero]
      linarith
    · -- digits are dropped only behind one that is not a zero
      have h_one : (1 : ℚ) ≤ Decimal.value taken := by exact_mod_cast h_pos h_nil
      have h_power : (0 : ℚ) < 10 ^ dropped.length := by positivity
      nlinarith
  rw [zpow_add₀ (by norm_num : (10 : ℚ) ≠ 0), ← mul_assoc, h_taken, magnitude, ← mul_assoc]
  refine mul_le_mul_of_nonneg_right ?_ (by positivity)
  linarith

/-! ### Reading it -/

/-- A positive whole number is not past a power of two that is at most twice as large. -/
theorem lt_two_pow_size {k : Nat} (h : 0 < k) : k < 2 ^ k.size ∧ 2 ^ k.size ≤ 2 * k := by
  refine ⟨Nat.lt_size_self k, ?_⟩
  obtain ⟨j, hj⟩ : ∃ j, k.size = j + 1 := ⟨k.size - 1, by have := Nat.size_pos.mpr h; omega⟩
  have h_le : 2 ^ j ≤ k := Nat.lt_size.mp (by omega)
  rw [hj, pow_succ]
  omega

section Reading

open Binary64 Float.Model

/-- The largest power of ten that the reader multiplies by. -/
theorem ten_pow_308 : 2 ^ 1017 < 10 ^ 308 ∧ 10 ^ 308 ≤ (2 ^ 53 - 1) * 2 ^ 971 := by decide +kernel

theorem rounded_powerOfTen {k : Nat} (h : k ≤ 308) : Rounded (10 ^ k) (powerOfTen k) := by
  have h_literal := rounded_literal 1 (e := k) (by omega)
  rwa [Nat.cast_one, one_mul] at h_literal

theorem isFinite_powerOfTen {k : Nat} (h : k ≤ 308) : (powerOfTen k).isFinite = true := by
  refine (rounded_powerOfTen h).isFinite (m := 2 ^ 53 - 1) (e := 971) (by norm_num)
    ⟨by norm_num, by norm_num, Or.inl (by norm_num)⟩ le_rfl ?_
  rw [abs_of_nonneg (by positivity)]
  calc (10 : ℚ) ^ k ≤ 10 ^ 308 := pow_le_pow_right₀ (by norm_num) h
    _ ≤ ((2 ^ 53 - 1 : ℕ) : ℚ) * 2 ^ 971 := by exact_mod_cast ten_pow_308.2

/-- **A product of a significand and a power of ten does not overflow**, although both were rounded
before they are multiplied. -/
theorem isFinite_product {s k : Nat} (hs : s ≤ significandLimit) (hk : k ≤ 308)
    (h : (s : ℚ) * 10 ^ k ≤ 2 ^ 1017) : (Float.ofNat s * powerOfTen k).isFinite = true := by
  have h_power := isFinite_powerOfTen hk
  rcases Nat.eq_zero_or_pos s with rfl | h_pos
  · have h_product := rounded_mul (x := Float.ofNat 0) (by decide) h_power
    rw [value_ofNat (n := 0) (by norm_num), Nat.cast_zero, zero_mul] at h_product
    exact (h_product.below (k := 0) (by norm_num) (by norm_num)).isFinite (by norm_num)
  · -- powers of two that neither of the two passes, nor their product
    obtain ⟨h_lt, h_le⟩ := lt_two_pow_size h_pos
    obtain ⟨h_lt', h_le'⟩ := lt_two_pow_size (k := 10 ^ k) (Nat.pow_pos (by norm_num))
    have h_total : s.size + (10 ^ k).size ≤ 1017 + 2 := by
      have h_nat : s * 10 ^ k ≤ 2 ^ 1017 := by exact_mod_cast h
      refine (Nat.pow_le_pow_iff_right (a := 2) (by norm_num)).mp ?_
      calc 2 ^ (s.size + (10 ^ k).size) = 2 ^ s.size * 2 ^ (10 ^ k).size := pow_add _ _ _
        _ ≤ 2 * s * (2 * 10 ^ k) := Nat.mul_le_mul h_le h_le'
        _ = 4 * (s * 10 ^ k) := by ring
        _ ≤ 4 * 2 ^ 1017 := Nat.mul_le_mul_left 4 h_nat
        _ = 2 ^ (1017 + 2) := by rw [pow_add, mul_comm]; norm_num
    -- rounding crosses no power of two, in either factor and in their product
    have h_significand : Below s.size (Float.ofNat s) := by
      refine (rounded_ofNat s).below (by omega) ?_
      rw [abs_of_nonneg (Nat.cast_nonneg s)]
      exact_mod_cast h_lt.le
    have h_scale : Below (10 ^ k).size (powerOfTen k) := by
      refine (rounded_powerOfTen hk).below (by omega) ?_
      rw [abs_of_nonneg (by positivity)]
      exact_mod_cast h_lt'.le
    have h_product := rounded_mul (h_significand.isFinite (by omega)) h_power
    refine (h_product.below (k := s.size + (10 ^ k).size) (by omega) ?_).isFinite (by omega)
    rw [abs_mul, pow_add]
    exact mul_le_mul h_significand.le_pow h_scale.le_pow (abs_nonneg _) (by positivity)

/-- A larger power of ten leaves room for nothing but a zero. -/
theorem eq_zero_of_large {s k : Nat} (hk : 308 < k) (h : (s : ℚ) * 10 ^ k ≤ 2 ^ 1017) : s = 0 := by
  by_contra h_ne
  have h_one : (1 : ℚ) ≤ s := by exact_mod_cast Nat.pos_of_ne_zero h_ne
  have h_large : (2 : ℚ) ^ 1017 < s * 10 ^ k :=
    calc (2 : ℚ) ^ 1017 < 10 ^ 308 := by exact_mod_cast ten_pow_308.1
      _ ≤ 10 ^ k := pow_le_pow_right₀ (by norm_num) hk.le
      _ ≤ s * 10 ^ k := le_mul_of_one_le_left (by positivity) h_one
  exact absurd h (not_le.mpr h_large)

/-- **A number that is not too large is read.** -/
theorem isSome_toFloat? (h : n.magnitude ≤ 2 ^ 1016) : n.toFloat?.isSome = true := by
  obtain ⟨-, -, -, -, -, -, -, h_limit, -⟩ := n.exists_significand
  have h_le : (n.significand.1 : ℚ) * 10 ^ (n.significand.2 + n.writtenExponent) ≤ 2 ^ 1017 := by
    calc (n.significand.1 : ℚ) * 10 ^ (n.significand.2 + n.writtenExponent) ≤ 2 * n.magnitude :=
          n.significand_le
      _ ≤ 2 * 2 ^ 1016 := mul_le_mul_of_nonneg_left h (by norm_num)
      _ = 2 ^ 1017 := (pow_succ' 2 1016).symm
  obtain ⟨⟨s, scale⟩, h_significand⟩ : ∃ p, p = n.significand := ⟨_, rfl⟩
  unfold toFloat?
  rw [← h_significand] at h_le h_limit ⊢
  dsimp only at h_le h_limit ⊢
  rw [Option.isSome_map]
  cases h_power : scale + n.writtenExponent with
  -- a division is never refused
  | negSucc k => rfl
  | ofNat k =>
    -- a product is where it is infinite, or where its power of ten is not in the table
    rw [h_power, Int.ofNat_eq_natCast, zpow_natCast] at h_le
    dsimp only
    split
    · next hk => rw [if_pos (isFinite_product h_limit hk h_le)]; rfl
    · next hk =>
      obtain rfl := eq_zero_of_large (not_le.mp hk) h_le
      rfl

/-- **What is written for a number is read again**, if the number is not too large. -/
theorem exists_toFloat? (h : Below 1015 x) :
    ∃ n y, ofFloat? x = some n ∧ n.toFloat? = some y := by
  -- what is written is at most twice the number
  obtain ⟨n, h_written, h_magnitude⟩ : ∃ n, ofFloat? x = some n ∧ n.magnitude ≤ 2 ^ 1016 := by
    have h_finite := h.isFinite (by norm_num)
    unfold ofFloat?
    rw [decode_eq]
    rcases zero_or_finite (u := parts x) h_finite with ⟨s, h_parts⟩ | ⟨s, m, q, hm, h_parts⟩
    · rw [h_parts]
      exact ⟨_, rfl, by simp [magnitude, Decimal.value, Digit.zero, writtenExponent]⟩
    · have h_size : size m q ≤ 2 ^ 1015 := by
        have h_pow := h.le_pow
        rw [h_parts] at h_pow
        cases s <;> simpa [value, abs_of_nonneg (size_nonneg m q)] using h_pow
      obtain ⟨k, rfl⟩ : ∃ k, m = k + 1 := ⟨m - 1, by omega⟩
      rw [h_parts]
      refine ⟨_, rfl, ?_⟩
      -- the shortest digits lie between the two neighbours, so they add half a unit at most
      have h_one : (1 : ℚ) ≤ ((k + 1 : ℕ) : ℚ) := by exact_mod_cast hm
      calc (ofDecimal (isNegative s) (Decimal.shortest (k + 1) q .even)).magnitude
          = (Decimal.shortest (k + 1) q .even).toRat := magnitude_ofDecimal _ _
        _ ≤ (4 * (k + 1 : ℕ) + 2) * 2 ^ (q - 2) := Decimal.toRat_shortest_le _ _ _
        _ = ((k + 1 : ℕ) + 1 / 2) * 2 ^ q := by
          rw [zpow_sub₀ (by norm_num : (2 : ℚ) ≠ 0)]
          ring
        _ ≤ 2 * size (k + 1) q := by
          rw [size, ← mul_assoc]
          exact mul_le_mul_of_nonneg_right (by linarith) (by positivity)
        _ ≤ 2 * 2 ^ 1015 := mul_le_mul_of_nonneg_left h_size (by norm_num)
        _ = 2 ^ 1016 := (pow_succ' 2 1015).symm
  -- and what is not larger than that can be read
  obtain ⟨y, hy⟩ := Option.isSome_iff_exists.mp (isSome_toFloat? h_magnitude)
  exact ⟨n, y, h_written, hy⟩

end Reading

end ClipEdit.Json.Number
