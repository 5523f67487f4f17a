import ClipEdit.Proofs.Scalar.Value

/-!
# Products, quotients and literals

No operation of binary64 numbers rounds across a number. `Value` says so of differences; this module
says so of the other operations that the editor needs:

* `mul_faithful`, `div_faithful` — products and quotients of finite numbers;
* `exists_roundMul`, `exists_roundDiv` — no grid point is nearer to them than the one they are rounded
  to;
* `ofScientific_faithful` — decimal literals and whole numbers.

A product is exact before it is rounded, and so is a literal. A quotient need not be: it is cut off
after enough bits, and what is left over is kept as one of three residues. Two more bits say the same
(`roundWithAccuracy_inexact`). They stand for an exact quantity that is near the quotient: no number
of the grid lies between the two (`GridPoint.le_or_succ_le`), and no half of a mantissa
(`half_le_iff`), so both are rounded alike.
-/

namespace ClipEdit.Binary64

open Float.Model Float.Model.UnpackedFloat

/-! ### Signs -/

/-- The factor of a sign. -/
def unit : Sign → ℚ
  | .negative => -1
  | .positive => 1

theorem value_finite_eq (s : Sign) (m : Nat) (e : Int) (hm : 0 < m) :
    value (.finite s m e hm) = unit s * size m e := by
  cases s <;> simp [value, unit]

theorem unit_mul (s t : Sign) : unit (s * t) = unit s * unit t := by
  cases s <;> cases t <;> norm_num [unit]

theorem unit_div (s t : Sign) : unit (s / t) = unit s / unit t := by
  cases s <;> cases t <;> norm_num [unit] <;> rfl

theorem faithful_zero (s : Sign) : Faithful 0 (.zero s) :=
  Faithful.self (u := .zero s) trivial (by simp)

/-- What is rounded to a point of the grid is faithful with either sign. -/
theorem RoundsTo.faithful_signed {q : ℚ} {m : Nat} {e : Int} (h : RoundsTo q m e) (hq : 0 < q)
    (s : Sign) : Faithful (unit s * q) (signed s m e) := by
  have h_pos := h.faithful hq
  cases s
  · have h_neg := h_pos.neg
    rw [neg_signed] at h_neg
    rw [unit, neg_one_mul]
    exact h_neg
  · simpa [unit] using h_pos

/-! ### Products -/

theorem size_mul_size (m n : Nat) (e f : Int) : size m e * size n f = size (m * n) (e + f) := by
  unfold size
  rw [zpow_add₀ (by norm_num : (2 : ℚ) ≠ 0)]
  push_cast
  ring

theorem log2_le_log2_mul {m n : Nat} (hn : 0 < n) : m.log2 ≤ (m * n).log2 := by
  rcases Nat.eq_zero_or_pos m with rfl | hm
  · simp
  · exact (Nat.le_log2 (by positivity)).mpr
      ((Nat.log2_self_le (by omega)).trans (Nat.le_mul_of_pos_right m hn))

/-- A product is not short of bits: the exponent it is rounded at is not below its own. -/
theorem exponent_mul_le {m n : Nat} {e f : Int} (hm : GridPoint m e) (hn : GridPoint n f)
    (hm' : 0 < m) (hn' : 0 < n) : e + f ≤ max ((m * n).log2 + (e + f) - 52) (-1074) := by
  -- two numbers with the least exponent have a product with less than that
  rcases hm.full_or_least with h_full | h_least
  · have h_log : 52 ≤ m.log2 := (Nat.le_log2 (by omega)).mpr h_full
    have h_le := log2_le_log2_mul (m := m) hn'
    omega
  · rcases hn.full_or_least with h_full | h_least'
    · have h_log : 52 ≤ n.log2 := (Nat.le_log2 (by omega)).mpr h_full
      have h_le := log2_le_log2_mul (m := n) hm'
      rw [Nat.mul_comm] at h_le
      omega
    · omega

/-- Rounding a quantity that is exact. -/
theorem exists_roundExact {m : Nat} {e : Int} (hm : 0 < m)
    (h_bits : e ≤ max (m.log2 + e - 52) (-1074)) :
    ∃ n f, RoundsTo (size m e) n f ∧ Nearest (size m e) (size n f) ∧
      ∀ s, roundWithAccuracy Format.binary64 s m e .exact = signed s n f := by
  obtain ⟨T, hT⟩ : ∃ T, T = max ((m.log2 : Int) + e - 52) (-1074) := ⟨_, rfl⟩
  have hk : T = e + (T - e).toNat := by omega
  obtain ⟨n, f, h_rounds, h_shifted, h_eq⟩ := exists_roundWithAccuracy hm hT hk
  refine ⟨n, f, h_rounds, ?_, h_eq⟩
  rw [h_shifted]
  exact nearest_shifted hm hT hk

theorem round_faithful {m : Nat} {e : Int} (hm : 0 < m)
    (h_bits : e ≤ max (m.log2 + e - 52) (-1074)) (s : Sign) :
    Faithful (unit s * size m e) (roundWithAccuracy Format.binary64 s m e .exact) := by
  obtain ⟨n, f, h_rounds, -, h_eq⟩ := exists_roundExact hm h_bits
  rw [h_eq]
  exact h_rounds.faithful_signed (size_pos hm e) s

/-- **Rounding a product**, which is exact before it is rounded. -/
theorem exists_roundMul {m n : Nat} {e f : Int} (hm : 0 < m) (hn : 0 < n) (hm' : GridPoint m e)
    (hn' : GridPoint n f) :
    ∃ a x, RoundsTo (size m e * size n f) a x ∧ Nearest (size m e * size n f) (size a x) ∧
      ∀ s t, UnpackedFloat.mul Format.binary64 (.finite s m e hm) (.finite t n f hn)
        = signed (s * t) a x := by
  obtain ⟨a, x, h_rounds, h_nearest, h_eq⟩ :=
    exists_roundExact (Nat.mul_pos hm hn) (exponent_mul_le hm' hn' hm hn)
  rw [← size_mul_size] at h_rounds h_nearest
  exact ⟨a, x, h_rounds, h_nearest, fun s t => h_eq (s * t)⟩

/-- **Multiplying is faithful.** -/
theorem mul_faithful {u v : UnpackedFloat} (hu : InFormat u) (hv : InFormat v)
    (hu' : u.isFinite = true) (hv' : v.isFinite = true) :
    Faithful (value u * value v) (UnpackedFloat.mul Format.binary64 u v) := by
  rcases zero_or_finite hu' with ⟨s, rfl⟩ | ⟨s, m, e, hm, rfl⟩ <;>
    rcases zero_or_finite hv' with ⟨t, rfl⟩ | ⟨t, n, f, hn, rfl⟩
  · rw [value_zero, zero_mul]
    exact faithful_zero (s * t)
  · rw [value_zero, zero_mul]
    exact faithful_zero (s * t)
  · rw [value_zero, mul_zero]
    exact faithful_zero (s * t)
  · -- signs are multiplied apart from sizes
    have h_value : value (.finite s m e hm) * value (.finite t n f hn)
        = unit (s * t) * (size m e * size n f) := by
      rw [value_finite_eq, value_finite_eq, unit_mul]
      ring
    obtain ⟨a, x, h_rounds, -, h_eq⟩ := exists_roundMul hm hn hu.1 hv.1
    rw [h_value, h_eq]
    exact h_rounds.faithful_signed (mul_pos (size_pos hm e) (size_pos hn f)) (s * t)

/-! ### Residues

What is left over behind a mantissa is less than half of its last bit, half of it, or more. -/

/-- The two bits that say the same as a residue. -/
def residue : Ordering → Nat
  | .lt => 1
  | .eq => 2
  | .gt => 3

theorem residue_pos (o : Ordering) : 0 < residue o := by
  cases o <;> decide

theorem residue_lt (o : Ordering) : residue o < 4 := by
  cases o <;> decide

/-- A residue is what is left when its two bits are shifted out. -/
theorem shiftRight_residue (m : Nat) (o : Ordering) (k : Nat) :
    ExtendedMantissa.ofMantissaAndAccuracy m (.inexact o) >>> k
      = (⟨4 * m + residue o, false, false⟩ : ExtendedMantissa) >>> (k + 2) := by
  -- two steps turn the two extra bits into the accuracy
  have h_two : (⟨4 * m + residue o, false, false⟩ : ExtendedMantissa) >>> 2
      = ExtendedMantissa.ofMantissaAndAccuracy m (.inexact o) := by
    change ExtendedMantissa.shiftRightOne
      (ExtendedMantissa.shiftRightOne ⟨4 * m + residue o, false, false⟩) = _
    have h_first : (4 * m + residue o) / 2 = 2 * m + residue o / 2 := by omega
    have h_second : (2 * m + residue o / 2) / 2 = m := by
      have h_lt := residue_lt o
      omega
    simp only [ExtendedMantissa.shiftRightOne, h_first, h_second]
    -- one case for each of the three accuracies
    cases o <;> simp [residue, ExtendedMantissa.ofMantissaAndAccuracy, Nat.add_mod, Nat.mul_mod]
  rw [← h_two]
  induction k with
  | zero => rfl
  | succ k ih => exact congrArg ExtendedMantissa.shiftRightOne ih

theorem log2_residue {m : Nat} (hm : 0 < m) (o : Ordering) :
    (4 * m + residue o).log2 = m.log2 + 2 := by
  have h_lo := Nat.log2_self_le (n := m) (by omega)
  have h_hi := Nat.lt_log2_self (n := m)
  have h_lt := residue_lt o
  rw [Nat.log2_eq_iff (by omega), pow_add, pow_add, pow_add]
  rw [pow_add] at h_hi
  omega

section Inexact

variable {m : Nat} {e : Int} {o : Ordering}

/-- Two more bits take the place of a residue. A mantissa may be zero if it is at the least exponent
or below, where its length does not matter. -/
theorem roundWithAccuracy_inexact (s : Sign) (h_pos : 0 < m ∨ e ≤ -1074)
    (h_bits : e ≤ max (m.log2 + e - 52) (-1074)) (o : Ordering) :
    roundWithAccuracy Format.binary64 s m e (.inexact o)
      = roundWithAccuracy Format.binary64 s (4 * m + residue o) (e - 2) .exact := by
  -- the bits make the mantissa longer by as much as they lower its exponent
  have h_target : max (((4 * m + residue o).log2 : Int) + (e - 2) - 52) (-1074)
      = max (m.log2 + e - 52) (-1074) := by
    rcases Nat.eq_zero_or_pos m with rfl | hm
    · have h_log : (4 * 0 + residue o).log2 ≤ 1 := by
        cases o <;> decide
      have h_zero : (0 : Nat).log2 = 0 := by decide
      omega
    · rw [log2_residue hm o]
      push_cast
      congr 1
      omega
  obtain ⟨k, hk⟩ : ∃ k : Nat, max ((m.log2 : Int) + e - 52) (-1074) = e + k :=
    ⟨(max ((m.log2 : Int) + e - 52) (-1074) - e).toNat, by omega⟩
  have h_shift : shiftToTargetExponent Format.binary64 m e (.inexact o)
      = shiftToTargetExponent Format.binary64 (4 * m + residue o) (e - 2) .exact := by
    rw [shiftToTargetExponent_eq h_target.symm (k := k + 2) (by omega), shiftToTargetExponent,
      targetExponent_eq, shiftToExponent, hk, show (e + k - e).toNat = k by omega,
      shiftRight_residue]
    push_cast
    congr 1
    omega
  simp only [roundWithAccuracy, h_shift]

/-- No number of the grid lies strictly between two mantissas that have enough bits. -/
theorem GridPoint.le_or_succ_le {n : Nat} {f : Int} (hn : GridPoint n f)
    (h_bits : e ≤ max (m.log2 + e - 52) (-1074)) :
    size n f ≤ size m e ∨ size (m + 1) e ≤ size n f := by
  rcases lt_or_ge f e with hf | hf
  · -- at a smaller exponent it is below all that have 53 bits
    have h_least := hn.le_exponent
    have h_full : 2 ^ 52 ≤ m := by
      have h_log : 52 ≤ m.log2 := by omega
      rcases Nat.eq_zero_or_pos m with rfl | hm
      · exact absurd h_log (by decide)
      · exact (Nat.le_log2 (by omega)).mp h_log
    exact Or.inl (size_lt_of_exponent_lt hn.lt_two_pow h_full hf).le
  · obtain ⟨j, rfl⟩ : ∃ j : Nat, f = e + j := ⟨(f - e).toNat, by omega⟩
    rw [size_eq_size rfl n, size_le_size_iff, size_le_size_iff]
    omega

/-- A quantity between two neighbouring mantissas, and the two bits that say on which side of the half
between them it lies, are on the same side of every half. -/
theorem half_le_iff {q : ℚ} (h_lo : size m e < q) (h_hi : q < size (m + 1) e)
    (h_half : compare q (size (2 * m + 1) (e - 1)) = o) (a : Nat) :
    (size a (e - 1) ≤ q ↔ size a (e - 1) ≤ size (4 * m + residue o) (e - 2)) ∧
      (q ≤ size a (e - 1) ↔ size (4 * m + residue o) (e - 2) ≤ size a (e - 1)) := by
  have h_res := residue_pos o
  have h_lt := residue_lt o
  have h_halves : ∀ b : Nat, size b e = size (2 * b) (e - 1) := by
    intro b
    rw [size_eq_size (show e = e - 1 + (1 : Nat) by omega) b, Nat.mul_comm, pow_one]
  have h_quarters : ∀ b : Nat, size b (e - 1) = size (2 * b) (e - 2) := by
    intro b
    rw [size_eq_size (show e - 1 = e - 2 + (1 : Nat) by omega) b, Nat.mul_comm, pow_one]
  rw [h_halves] at h_lo h_hi
  rw [h_quarters a, size_le_size_iff, size_le_size_iff, ← h_quarters a]
  rcases lt_trichotomy a (2 * m + 1) with h_below | rfl | h_above
  · -- below the half between the two, everything is below the quantity
    have h_a : size a (e - 1) < q :=
      (size_le_size_iff.mpr (show a ≤ 2 * m by omega)).trans_lt h_lo
    exact ⟨iff_of_true h_a.le (by omega), iff_of_false (not_le.mpr h_a) (by omega)⟩
  · -- the half itself is what the two bits were compared with
    cases o with
    | lt =>
      have h_q := compare_lt_iff_lt.mp h_half
      exact ⟨iff_of_false (not_le.mpr h_q) (by simp [residue]; omega),
        iff_of_true h_q.le (by simp [residue]; omega)⟩
    | eq =>
      have h_q := compare_eq_iff_eq.mp h_half
      exact ⟨iff_of_true h_q.ge (by simp [residue]; omega),
        iff_of_true h_q.le (by simp [residue]; omega)⟩
    | gt =>
      have h_q := compare_gt_iff_gt.mp h_half
      exact ⟨iff_of_true h_q.le (by simp [residue]; omega),
        iff_of_false (not_le.mpr h_q) (by simp [residue]; omega)⟩
  · have h_a : q < size a (e - 1) :=
      h_hi.trans_le (size_le_size_iff.mpr (show 2 * (m + 1) ≤ a by omega))
    exact ⟨iff_of_false (not_le.mpr h_a) (by omega), iff_of_true h_a.le (by omega)⟩

/-- The two bits stand for a quantity between the same two neighbours. -/
theorem size_residue (m : Nat) (e : Int) (o : Ordering) :
    size m e < size (4 * m + residue o) (e - 2) ∧
      size (4 * m + residue o) (e - 2) < size (m + 1) e := by
  have h_res := residue_pos o
  have h_lt := residue_lt o
  have h_quarters : ∀ a : Nat, size a e = size (4 * a) (e - 2) := by
    intro a
    rw [size_eq_size (show e = e - 2 + (2 : Nat) by omega) a, Nat.mul_comm]
    rfl
  rw [h_quarters, h_quarters, size_lt_size_iff, size_lt_size_iff]
  omega

/-- The two bits have all their bits when they are rounded, and then so has the quantity. -/
theorem full_or_least_of_residue {q : ℚ} {k : Nat} {T : Int} (h_lo : size m e < q)
    (h_hi : q < size (m + 1) e) (h_half : compare q (size (2 * m + 1) (e - 1)) = o)
    (hT : T = max (((4 * m + residue o).log2 : Int) + (e - 2) - 52) (-1074)) (hk : T = e + k) :
    size (2 ^ 52) T ≤ q ∨ T = -1074 := by
  have h_pos : 0 < 4 * m + residue o := by
    have h_res := residue_pos o
    omega
  rcases full_or_least_of_target h_pos hT (k := k + 2) (by omega) with h_full | h_least
  · left
    have h_at : size (2 ^ 52) T = size (2 ^ 52 * 2 ^ (k + 1)) (e - 1) :=
      size_eq_size (by push_cast; omega) _
    rw [h_at] at h_full ⊢
    exact (half_le_iff h_lo h_hi h_half _).1.mpr h_full
  · exact Or.inr h_least

/-- **The two bits are rounded to what is half a step from the quantity itself at most.** Half a step
is a whole number of halves, and those do not tell the two apart. -/
theorem shifted_residue_half {q : ℚ} {k : Nat} {T : Int} (h_lo : size m e < q)
    (h_hi : q < size (m + 1) e) (h_half : compare q (size (2 * m + 1) (e - 1)) = o)
    (hk : T = e + k) :
    q ≤ size (2 * shifted (4 * m + residue o) (k + 2) + 1) (T - 1) ∧
      size (2 * shifted (4 * m + residue o) (k + 2)) (T - 1) ≤ q + size 1 (T - 1) := by
  have h_at : ∀ a : Nat, size a (T - 1) = size (a * 2 ^ k) (e - 1) := size_eq_size (by omega)
  obtain ⟨h_above, h_below⟩ :=
    size_shifted_half (4 * m + residue o) (k + 2) (show T = e - 2 + (k + 2 : Nat) by omega)
  generalize shifted (4 * m + residue o) (k + 2) = n at *
  constructor
  · rw [h_at] at h_above ⊢
    exact (half_le_iff h_lo h_hi h_half _).2.mpr h_above
  · cases n with
    | zero =>
      -- nothing is to be shown of a quantity that is rounded to zero
      have h_q := (size_nonneg m e).trans h_lo.le
      have h_one := size_nonneg 1 (T - 1)
      simpa [size] using add_nonneg h_q h_one
    | succ n =>
      rw [show 2 * (n + 1) = 2 * n + 1 + 1 by omega, size_add] at h_below ⊢
      rw [add_le_add_iff_right, h_at] at h_below ⊢
      exact (half_le_iff h_lo h_hi h_half _).1.mpr h_below

/-- Half a step is a small part of a quantity that is not below `leastFull`. -/
theorem shifted_residue_near {q : ℚ} {k : Nat} {T : Int} (h_lo : size m e < q)
    (h_hi : q < size (m + 1) e) (h_half : compare q (size (2 * m + 1) (e - 1)) = o)
    (hT : T = max (((4 * m + residue o).log2 : Int) + (e - 2) - 52) (-1074)) (hk : T = e + k)
    (h_full : leastFull ≤ q) :
    |size (shifted (4 * m + residue o) (k + 2)) T - q| ≤ q / 2 ^ 53 := by
  obtain ⟨h_above, h_below⟩ := shifted_residue_half h_lo h_hi h_half hk
  refine abs_size_sub_le ?_ h_below h_above
  rcases full_or_least_of_residue h_lo h_hi h_half hT hk with h_bits | h_least
  · exact h_bits
  · rw [h_least]
    exact h_full

/-- **Rounding with a residue.** A quantity strictly between two neighbouring mantissas is rounded like
the two bits that say where. -/
theorem exists_roundInexact {q : ℚ} (h_pos : 0 < m ∨ e ≤ -1074)
    (h_bits : e ≤ max (m.log2 + e - 52) (-1074)) (h_lo : size m e < q) (h_hi : q < size (m + 1) e)
    (h_half : compare q (size (2 * m + 1) (e - 1)) = o) :
    ∃ n f, RoundsTo q n f ∧ Nearest q (size n f) ∧
      ∀ s, roundWithAccuracy Format.binary64 s m e (.inexact o) = signed s n f := by
  -- the quantity is between two neighbours, and two extra bits say on which side of their middle
  obtain ⟨h_lo', h_hi'⟩ := size_residue m e o
  have h_some : 0 < 4 * m + residue o := by
    have h_res := residue_pos o
    omega
  obtain ⟨T, hT⟩ : ∃ T, T = max (((4 * m + residue o).log2 : Int) + (e - 2) - 52) (-1074) := ⟨_, rfl⟩
  -- the extra bits do not move the place where the mantissa is cut off
  have h_bits' : e ≤ T := by
    rcases Nat.eq_zero_or_pos m with rfl | hm
    · omega
    · rw [log2_residue hm o] at hT
      push_cast at hT
      omega
  obtain ⟨k, hk⟩ : ∃ k : Nat, T = e + k := ⟨(T - e).toNat, by omega⟩
  obtain ⟨n, f, h_rounds, h_shifted, h_eq⟩ :=
    exists_roundWithAccuracy (k := k + 2) h_some hT (by omega)
  refine ⟨n, f, ⟨h_rounds.gridPoint, ?_, ?_, ?_⟩, ?_, ?_⟩
  · -- no grid point lies strictly between the neighbours, so bounds on the quantity are ones on `m`
    intro n' f' h_grid h_le
    rcases h_grid.le_or_succ_le h_bits with h | h
    · exact absurd (h_lo.trans_le (h_le.trans h)) (lt_irrefl _)
    · exact h_rounds.size_le h_grid (h_hi'.le.trans h)
  · intro n' f' h_grid h_le
    rcases h_grid.le_or_succ_le h_bits with h | h
    · exact h_rounds.le_size h_grid (h.trans h_lo'.le)
    · exact absurd (h.trans_lt (h_le.trans_lt h_hi)) (lt_irrefl _)
  · intro h_full
    rw [h_shifted]
    exact shifted_residue_near h_lo h_hi h_half hT hk h_full
  · -- what is chosen is half a step away at most
    obtain ⟨h_above, h_below⟩ := shifted_residue_half h_lo h_hi h_half hk
    rw [h_shifted]
    exact nearest_of_half (full_or_least_of_residue h_lo h_hi h_half hT hk) h_below h_above
  · intro s
    rw [roundWithAccuracy_inexact s h_pos h_bits, h_eq]

end Inexact

/-! ### Quotients -/

section Quotient

variable {m n : Nat} {e f x : Int} {j : Nat}

theorem size_div_size (hn : 0 < n) (h_shift : x = e - f - j) :
    size m e / size n f = (m * 2 ^ j : Nat) / (n : ℚ) * (2 : ℚ) ^ x := by
  have hn' : (n : ℚ) ≠ 0 := by positivity
  unfold size
  rw [h_shift, zpow_sub₀ (by norm_num : (2 : ℚ) ≠ 0), zpow_sub₀ (by norm_num : (2 : ℚ) ≠ 0),
    zpow_natCast]
  push_cast
  field_simp

/-- A quotient lies between the whole quotient of the mantissas and the next mantissa. -/
theorem quotient_between (hn : 0 < n) (h_shift : x = e - f - j) :
    size (m * 2 ^ j / n) x ≤ size m e / size n f ∧
      size m e / size n f < size (m * 2 ^ j / n + 1) x ∧
      (m * 2 ^ j % n = 0 ↔ size m e / size n f = size (m * 2 ^ j / n) x) := by
  have hx : (0 : ℚ) < (2 : ℚ) ^ x := by positivity
  have hn' : (0 : ℚ) < n := by exact_mod_cast hn
  have h_split : n * (m * 2 ^ j / n) + m * 2 ^ j % n = m * 2 ^ j := Nat.div_add_mod _ n
  have h_rest := Nat.mod_lt (m * 2 ^ j) hn
  rw [size_div_size hn h_shift, size, size, mul_le_mul_iff_left₀ hx, mul_lt_mul_iff_left₀ hx,
    mul_left_inj' hx.ne', le_div_iff₀ hn', div_lt_iff₀ hn', div_eq_iff hn'.ne']
  norm_cast
  rw [Nat.mul_comm _ n, Nat.mul_comm _ n, Nat.mul_add]
  omega

/-- What is left over of the mantissas is compared with half of the divisor, and so is the quotient
with the half between two mantissas. -/
theorem compare_quotient_half (hn : 0 < n) (h_shift : x = e - f - j) :
    compare (size m e / size n f) (size (2 * (m * 2 ^ j / n) + 1) (x - 1))
      = compare (2 * (m * 2 ^ j % n)) n := by
  have hx : (0 : ℚ) < (2 : ℚ) ^ (x - 1) := by positivity
  have hn' : (0 : ℚ) < n := by exact_mod_cast hn
  -- quotient and remainder
  have h_split : n * (m * 2 ^ j / n) + m * 2 ^ j % n = m * 2 ^ j := Nat.div_add_mod _ n
  have h_step : (2 : ℚ) ^ x = 2 * 2 ^ (x - 1) := by
    rw [zpow_sub_one₀ (by norm_num : (2 : ℚ) ≠ 0)]
    ring
  have h_quotient : size m e / size n f = ((2 * (m * 2 ^ j) : Nat) : ℚ) / n * 2 ^ (x - 1) := by
    rw [size_div_size hn h_shift, h_step]
    push_cast
    ring
  have h_mul : (2 * (m * 2 ^ j / n) + 1) * n = 2 * (n * (m * 2 ^ j / n)) + n := by ring
  rw [h_quotient, size]
  -- twice the remainder against the divisor, on both sides of the equation
  rcases lt_trichotomy (2 * (m * 2 ^ j % n)) n with h | h | h
  · rw [compare_lt_iff_lt.mpr h, compare_lt_iff_lt, mul_lt_mul_iff_left₀ hx, div_lt_iff₀ hn']
    norm_cast
    omega
  · rw [compare_eq_iff_eq.mpr h, compare_eq_iff_eq, mul_left_inj' hx.ne', div_eq_iff hn'.ne']
    norm_cast
    omega
  · rw [compare_gt_iff_gt.mpr h, compare_gt_iff_gt, mul_lt_mul_iff_left₀ hx,
      lt_div_iff₀ hn']
    norm_cast
    omega

/-- Enough bits are computed: the exponent that the quotient is rounded at is not below its own. -/
theorem exponent_div_le (hm : 0 < m) (hn : 0 < n) (h_shift : x = e - f - j)
    (hx : x ≤ max ((m.log2 : Int) + e - (n.log2 + f) - 53) (-1074)) :
    (0 < m * 2 ^ j / n ∨ x ≤ -1074) ∧
      x ≤ max (((m * 2 ^ j / n).log2 : Int) + x - 52) (-1074) := by
  rcases le_or_gt x (-1074) with h_least | h_above
  · exact ⟨Or.inr h_least, by omega⟩
  · -- the dividend was shifted far enough for a full quotient
    have h_full : 2 ^ 52 ≤ m * 2 ^ j / n := by
      rw [Nat.le_div_iff_mul_le hn]
      calc 2 ^ 52 * n ≤ 2 ^ 52 * 2 ^ (n.log2 + 1) := Nat.mul_le_mul_left _ Nat.lt_log2_self.le
        _ = 2 ^ (n.log2 + 53) := by ring
        _ ≤ 2 ^ (m.log2 + j) := Nat.pow_le_pow_right (by norm_num) (by omega)
        _ = 2 ^ m.log2 * 2 ^ j := pow_add _ _ _
        _ ≤ m * 2 ^ j := Nat.mul_le_mul_right _ (Nat.log2_self_le (by omega))
    have h_log : 52 ≤ (m * 2 ^ j / n).log2 := (Nat.le_log2 (by omega)).mpr h_full
    exact ⟨Or.inl (by omega), by omega⟩

/-- What is rounded to make a quotient. -/
theorem exists_divCore (m n : Nat) (e f : Int) :
    ∃ (x : Int) (j : Nat), x = e - f - j ∧
      x ≤ max ((m.log2 : Int) + e - (n.log2 + f) - 53) (-1074) ∧
      divCore Format.binary64 m e n f
        = (m * 2 ^ j / n, x, accuracyOfFraction (m * 2 ^ j % n) n) := by
  have h_target : Format.binary64.targetExponent (totalExponent m e - totalExponent n f)
      = max ((m.log2 : Int) + e - (n.log2 + f) - 53) (-1074) := by
    simp only [Format.targetExponent, totalExponent, Format.mantissaBits, Format.minExponent]
    norm_num
    omega
  refine ⟨min (e - f) (max ((m.log2 : Int) + e - (n.log2 + f) - 53) (-1074)),
    (e - f - min (e - f) (max ((m.log2 : Int) + e - (n.log2 + f) - 53) (-1074))).toNat,
    by omega, min_le_right _ _, ?_⟩
  simp only [divCore, h_target, Nat.shiftLeft_eq]

/-- **Rounding a quotient**, of which a residue is known behind the mantissa. -/
theorem exists_roundDiv (hm : 0 < m) (hn : 0 < n) (e f : Int) :
    ∃ a x, RoundsTo (size m e / size n f) a x ∧ Nearest (size m e / size n f) (size a x) ∧
      ∀ s t, UnpackedFloat.div Format.binary64 (.finite s m e hm) (.finite t n f hn)
        = signed (s / t) a x := by
  obtain ⟨x, j, h_shift, hx, h_core⟩ := exists_divCore m n e f
  obtain ⟨h_lo, h_hi, h_exact⟩ := quotient_between (m := m) hn h_shift
  obtain ⟨h_pos, h_bits⟩ := exponent_div_le hm hn h_shift hx
  have h_quotient : 0 < size m e / size n f := div_pos (size_pos hm e) (size_pos hn f)
  have h_div : ∀ s t, UnpackedFloat.div Format.binary64 (.finite s m e hm) (.finite t n f hn)
      = roundWithAccuracy Format.binary64 (s / t) (m * 2 ^ j / n) x
          (accuracyOfFraction (m * 2 ^ j % n) n) := by
    intro s t
    simp only [UnpackedFloat.div, h_core]
  simp only [h_div]
  rw [accuracyOfFraction]
  split
  · next h_zero =>
    -- nothing is left over, so the quotient is a size itself
    have h_eq := h_exact.mp h_zero
    have h_mantissa : 0 < m * 2 ^ j / n := by
      rw [h_eq] at h_quotient
      by_contra h_not
      rw [Nat.eq_zero_of_not_pos h_not] at h_quotient
      exact absurd h_quotient (by simp [size])
    rw [h_eq]
    obtain ⟨a, y, h_rounds, h_nearest, h_round⟩ := exists_roundExact h_mantissa h_bits
    exact ⟨a, y, h_rounds, h_nearest, fun s t => h_round (s / t)⟩
  · next h_rest =>
    -- otherwise it lies between two mantissas, and twice the rest tells which of them is nearer
    have h_lo' : size (m * 2 ^ j / n) x < size m e / size n f :=
      lt_of_le_of_ne h_lo fun h => h_rest (h_exact.mpr h.symm)
    obtain ⟨a, y, h_rounds, h_nearest, h_round⟩ :=
      exists_roundInexact h_pos h_bits h_lo' h_hi (compare_quotient_half hn h_shift)
    exact ⟨a, y, h_rounds, h_nearest, fun s t => h_round (s / t)⟩

end Quotient

/-- **Dividing is faithful.** -/
theorem div_faithful {u v : UnpackedFloat} (hu : u.isFinite = true) (hv : v.isFinite = true)
    (h_ne : value v ≠ 0) : Faithful (value u / value v) (UnpackedFloat.div Format.binary64 u v) := by
  rcases zero_or_finite hv with ⟨t, rfl⟩ | ⟨t, n, f, hn, rfl⟩
  · exact absurd (value_zero t) h_ne
  · rcases zero_or_finite hu with ⟨s, rfl⟩ | ⟨s, m, e, hm, rfl⟩
    · rw [value_zero, zero_div]
      exact faithful_zero (s / t)
    · have h_value : value (.finite s m e hm) / value (.finite t n f hn)
          = unit (s / t) * (size m e / size n f) := by
        rw [value_finite_eq, value_finite_eq, unit_div, mul_div_mul_comm]
      obtain ⟨a, x, h_rounds, -, h_eq⟩ := exists_roundDiv hm hn e f
      rw [h_value, h_eq]
      exact h_rounds.faithful_signed (div_pos (size_pos hm e) (size_pos hn f)) (s / t)

/-- What is not finite does not become finite by being divided. -/
theorem not_isFinite_div {u v : UnpackedFloat} (hu : ¬ u.isFinite = true) (hv : v.isFinite = true) :
    OnGrid (UnpackedFloat.div Format.binary64 u v) ∧
      ¬ (cutOff (UnpackedFloat.div Format.binary64 u v)).isFinite = true := by
  cases u with
  | notANumber => exact ⟨trivial, hu⟩
  | infinity s =>
    rcases zero_or_finite hv with ⟨t, rfl⟩ | ⟨t, n, f, hn, rfl⟩
    · exact ⟨trivial, by simp [UnpackedFloat.div, cutOff, UnpackedFloat.isFinite]⟩
    · exact ⟨trivial, by simp [UnpackedFloat.div, cutOff, UnpackedFloat.isFinite]⟩
  | _ => exact absurd rfl hu

/-! ### Stored results -/

/-- **A stored number is a quantity that was rounded**: no number of the format lies strictly between
the two. -/
def Rounded (q : ℚ) (x : Float) : Prop := Faithful q (parts x)

namespace Rounded

variable {q : ℚ} {x : Float} {z : UnpackedFloat}

theorem isNumber (h : Rounded q x) : parts x ≠ .notANumber := Faithful.isNumber h

theorem value_le (h : Rounded q x) (hz : InFormat z) (h_le : q ≤ value z) :
    value (parts x) ≤ value z := by
  have h_cut := Faithful.value_le h hz h_le
  rwa [(inFormat_parts x).cutOff_eq] at h_cut

theorem le_value (h : Rounded q x) (hz : InFormat z) (h_le : value z ≤ q) :
    value z ≤ value (parts x) := by
  have h_cut := Faithful.le_value h hz h_le
  rwa [(inFormat_parts x).cutOff_eq] at h_cut

/-- A number of the format is rounded to its own value. -/
theorem eq_value (h : Rounded q x) (hz : InFormat z) (hq : value z = q) : value (parts x) = q :=
  le_antisymm ((h.value_le hz hq.ge).trans_eq hq) (hq.ge.trans (h.le_value hz hq.le))

end Rounded

/-- Storing a rounded result rounds it no further. -/
theorem Faithful.rounded {q : ℚ} {u : UnpackedFloat} (h : Faithful q u) :
    Rounded q (Float.ofModel (Float.Model.pack u)) := by
  have h_parts : parts (Float.ofModel (Float.Model.pack u)) = cutOff u := unpack_pack h.onGrid
  have h_format := inFormat_parts (Float.ofModel (Float.Model.pack u))
  unfold Rounded
  rw [h_parts] at h_format ⊢
  refine ⟨cutOff_ne_notANumber h.isNumber, h_format.onGrid, ?_, ?_, ?_⟩ <;> rw [h_format.cutOff_eq]
  · exact h.value_le
  · exact h.le_value
  · exact h.near

section Stored

variable {x y : Float}

theorem rounded_sub (hx : x.isFinite = true) (hy : y.isFinite = true) :
    Rounded (value (parts x) - value (parts y)) (x - y) :=
  (sub_faithful (inFormat_parts x) (inFormat_parts y) hx hy).rounded

theorem rounded_mul (hx : x.isFinite = true) (hy : y.isFinite = true) :
    Rounded (value (parts x) * value (parts y)) (x * y) :=
  (mul_faithful (inFormat_parts x) (inFormat_parts y) hx hy).rounded

theorem rounded_div (hx : x.isFinite = true) (hy : y.isFinite = true)
    (h_ne : value (parts y) ≠ 0) : Rounded (value (parts x) / value (parts y)) (x / y) :=
  (div_faithful hx hy h_ne).rounded

theorem isFinite_of_div (h : (x / y).isFinite = true) (hy : y.isFinite = true) :
    x.isFinite = true := by
  by_contra h_not
  obtain ⟨h_grid, h_infinite⟩ := not_isFinite_div (u := parts x) (v := parts y) h_not hy
  rw [← unpack_pack h_grid] at h_infinite
  exact h_infinite h

end Stored

section Bounds

variable {x : Float} {q : ℚ} {m : Nat} {e : Int}

/-- What is not past a number of the format is not rounded past it. -/
theorem Rounded.abs_value_le_size (h : Rounded q x) (hm : 0 < m) (h_grid : GridPoint m e)
    (he : e ≤ 971) (hq : |q| ≤ size m e) : |value (parts x)| ≤ size m e := by
  rw [abs_le] at hq ⊢
  exact ⟨h.le_value (z := .finite .negative m e hm) ⟨h_grid, he⟩ hq.1,
    h.value_le (z := .finite .positive m e hm) ⟨h_grid, he⟩ hq.2⟩

/-- Numbers that are not past a number of the format are finite. -/
theorem isFinite_of_abs_le (hx : parts x ≠ .notANumber) (h_grid : GridPoint m e) (he : e ≤ 971)
    (h : |value (parts x)| ≤ size m e) : x.isFinite = true :=
  (isFinite_iff (inFormat_parts x)).mpr ⟨hx, h.trans_lt (size_lt_limit h_grid he)⟩

/-- What is not further from zero than a number of the format is not rounded further. -/
theorem Rounded.abs_value_le {z : UnpackedFloat} (h : Rounded q x) (hz : InFormat z)
    (hq : |q| ≤ |value z|) : |value (parts x)| ≤ |value z| := by
  have h_neg := value_neg z
  rw [abs_le] at hq ⊢
  rcases abs_cases (value z) with ⟨h_abs, -⟩ | ⟨h_abs, -⟩ <;> rw [h_abs] at hq ⊢
  · have h_lo := h.le_value hz.neg (h_neg.trans_le hq.1)
    exact ⟨h_neg.symm.trans_le h_lo, h.value_le hz hq.2⟩
  · rw [neg_neg] at hq ⊢
    have h_hi := h.value_le hz.neg (hq.2.trans_eq h_neg.symm)
    exact ⟨h.le_value hz hq.1, h_hi.trans_eq h_neg⟩

theorem Rounded.isFinite (h : Rounded q x) (hm : 0 < m) (h_grid : GridPoint m e) (he : e ≤ 971)
    (hq : |q| ≤ size m e) : x.isFinite = true :=
  isFinite_of_abs_le h.isNumber h_grid he (h.abs_value_le_size hm h_grid he hq)

end Bounds

/-! ### Whole numbers and literals -/

/-- Whole numbers of up to 53 bits are numbers of the format. -/
theorem exists_inFormat_natCast {m : Nat} (h : m < 2 ^ 53) :
    ∃ z, InFormat z ∧ value z = m := by
  rcases Nat.eq_zero_or_pos m with rfl | hm
  · exact ⟨.zero .positive, trivial, by simp⟩
  · have h_log : m.log2 < 53 := (Nat.log2_lt (by omega)).mpr h
    obtain ⟨k, hk⟩ : ∃ k, m.log2 + k = 52 := ⟨52 - m.log2, by omega⟩
    -- zeros are put behind the mantissa until it has 53 bits
    have h_full : 2 ^ 52 ≤ m * 2 ^ k :=
      calc 2 ^ 52 = 2 ^ m.log2 * 2 ^ k := by rw [← hk, pow_add]
        _ ≤ m * 2 ^ k := Nat.mul_le_mul_right _ (Nat.log2_self_le (by omega))
    have h_lt : m * 2 ^ k < 2 ^ 53 :=
      calc m * 2 ^ k < 2 ^ (m.log2 + 1) * 2 ^ k :=
            Nat.mul_lt_mul_of_pos_right Nat.lt_log2_self (by positivity)
        _ = 2 ^ 53 := by rw [← pow_add]; congr 1; omega
    refine ⟨.finite .positive (m * 2 ^ k) (0 - k) (by positivity),
      ⟨⟨h_lt, by omega, Or.inl h_full⟩, by omega⟩, ?_⟩
    change size (m * 2 ^ k) (0 - k) = m
    rw [size_shift, size, zpow_zero, mul_one]

theorem rounded_toFloat {m : Nat} (h : m < 2 ^ 64) : Rounded m m.toUInt64.toFloat := by
  have h_nat : m.toUInt64.toNat = m := by
    rw [Nat.toUInt64_eq, UInt64.toNat_ofNat']
    exact Nat.mod_eq_of_lt h
  have h_normalize := (faithful_normalize (m : Int) 0 .positive).rounded
  rw [zpow_zero, mul_one, Int.cast_natCast] at h_normalize
  change Rounded m (Float.ofModel (Float.Model.pack
    (UnpackedFloat.normalize Format.binary64 (m.toUInt64.toNat : Int) 0 .positive)))
  rw [h_nat]
  exact h_normalize

/-- The powers of ten that are stored are exact. -/
theorem value_exactPower : ∀ i : Fin 23,
    (Float.exactlyRepresentablePowersOfTen[i]).isFinite = true ∧
      value (parts (Float.exactlyRepresentablePowersOfTen[i])) = 10 ^ i.val := by
  decide +kernel

/-- A literal that is not short is a product of a long mantissa, which is exact before it is
rounded. -/
theorem ofScientific_faithful (m : Nat) {e : Nat} (he : e ≤ 2048) :
    Faithful ((m : ℚ) * 10 ^ e) (UnpackedFloat.ofScientific Format.binary64 m (e : Int)) := by
  unfold UnpackedFloat.ofScientific
  split
  · next h_zero =>
    rw [h_zero, Nat.cast_zero, zero_mul]
    exact faithful_zero .positive
  · next h_ne =>
    -- the exponent is neither too large nor negative, so the power of ten is a factor
    have hm : 0 < m := Nat.pos_of_ne_zero h_ne
    rw [if_neg (by change ¬ (e : Int) > 2 ^ 11; omega),
      if_neg (by change ¬ (e : Int) < -(2 ^ 11 + _); omega), if_pos (by omega)]
    have h_product : size (m * 2 ^ 53 * 10 ^ e) (-53) = (m : ℚ) * 10 ^ e := by
      unfold size
      push_cast
      rw [zpow_neg]
      field_simp
      norm_num
    -- the mantissa has more bits than the format, so that it is rounded once, at the end
    have h_log : 53 ≤ (m * 2 ^ 53 * 10 ^ e).log2 := by
      refine (Nat.le_log2 (by positivity)).mpr ?_
      calc 2 ^ 53 = 1 * 2 ^ 53 * 1 := by norm_num
        _ ≤ m * 2 ^ 53 * 10 ^ e :=
          Nat.mul_le_mul (Nat.mul_le_mul_right _ hm) (Nat.one_le_pow _ _ (by norm_num))
    have h_round := round_faithful (m := m * 2 ^ 53 * 10 ^ e) (e := -53) (by positivity)
      (by omega) .positive
    rw [h_product, unit, one_mul] at h_round
    simp only [UnpackedFloat.mul, Nat.shiftLeft_eq, Int.toNat_natCast]
    exact h_round

/-- **Decimal literals are rounded once**, however they are computed. -/
theorem rounded_literal (m : Nat) {e : Nat} (he : e ≤ 2048) :
    Rounded ((m : ℚ) * 10 ^ e) (OfScientific.ofScientific m false e) := by
  change Rounded _ (Float.ofScientific m false e)
  unfold Float.ofScientific
  split
  · next h =>
    -- a short literal is the product of two numbers that are exact
    obtain ⟨h_fin, h_power⟩ := value_exactPower ⟨e, by omega⟩
    have h_rounded := rounded_toFloat (m := m) (by omega)
    obtain ⟨z, hz, h_value⟩ := exists_inFormat_natCast h.1
    have h_fin' : m.toUInt64.toFloat.isFinite = true := by
      refine h_rounded.isFinite (m := 2 ^ 52) (e := 1) (by norm_num)
        ⟨by norm_num, by norm_num, Or.inl le_rfl⟩ (by norm_num) ?_
      rw [abs_of_nonneg (Nat.cast_nonneg m)]
      have h_cast : (m : ℚ) ≤ 2 ^ 53 := by exact_mod_cast h.1.le
      calc (m : ℚ) ≤ 2 ^ 53 := h_cast
        _ = size (2 ^ 52) 1 := by norm_num [size]
    have h_mul := rounded_mul h_fin' h_fin
    rw [h_power, h_rounded.eq_value hz h_value] at h_mul
    exact h_mul
  · exact (ofScientific_faithful m he).rounded

end ClipEdit.Binary64
