import ClipEdit.Scalar.Exact
import Mathlib.Data.Rat.Floor
import Mathlib.Tactic.FieldSimp
import Mathlib.Tactic.Linarith
import Mathlib.Tactic.Ring

/-!
# Thousandths

Every overlay that is stored has been clamped and then rounded to thousandths. In exact arithmetic
clamping is a maximum and a minimum (`within_eq`), and rounding is a monotone map onto the whole
numbers of thousandths (`IsMilli`) that moves nothing by more than half a thousandth:

* `isMilli_roundMilli`, `roundMilli_eq_self` — its values, all of which it fixes;
* `monotone_roundMilli`, `abs_roundMilli_sub_le` — order and distance;
* `roundMilli_lt_roundMilli` — the order is strict where numbers are a thousandth apart;
* `roundMilli_add`, `roundMilli_pos_iff` — it commutes with thousandths, and what it takes to zero.

From these two follow the two facts that the geometry of overlays rests on, one for ranges of every
kind and one for ranges whose ends are thousandths:

* `roundMilli_within_roundMilli_within` — clamping and rounding twice is the same as doing it once,
  even where rounding has left the range;
* `roundMilli_within_mem` — rounding does not leave a range that begins and ends on thousandths.

What is clamped and rounded is within half a thousandth of what was clamped
(`abs_roundMilli_within_sub_le`), and exactly that if it was a thousandth
(`roundMilli_within_of_isMilli`).
-/

namespace ClipEdit.Exact

open Scalar

variable {x y lo hi : ℚ}

/-! ### Choices -/

theorem atLeast_eq_max (x lo : ℚ) : atLeast x lo = max x lo := by
  unfold atLeast
  split
  · next h => exact (max_eq_right (le_of_lt h)).symm
  · next h =>
    rw [if_pos (beq_self_eq_true x)]
    exact (max_eq_left (not_lt.mp h)).symm

theorem atMost_eq_min (x hi : ℚ) : atMost x hi = min x hi := by
  unfold atMost
  split
  · next h => exact (min_eq_right (le_of_lt h)).symm
  · next h =>
    rw [if_pos (beq_self_eq_true x)]
    exact (min_eq_left (not_lt.mp h)).symm

theorem within_eq (x lo hi : ℚ) : within x lo hi = min (max x lo) hi := by
  rw [within, atMost_eq_min, atLeast_eq_max]

theorem within_eq_self (h_lo : lo ≤ x) (h_hi : x ≤ hi) : within x lo hi = x := by
  rw [within_eq, max_eq_left h_lo, min_eq_left h_hi]

theorem le_within (h : lo ≤ hi) (x : ℚ) : lo ≤ within x lo hi := by
  rw [within_eq]
  exact le_min (le_max_right x lo) h

theorem within_le (x lo hi : ℚ) : within x lo hi ≤ hi := by
  rw [within_eq]
  exact min_le_right _ _

/-- As long as the range is not empty, it does not matter which end is looked at first. -/
theorem within_eq_max (h : lo ≤ hi) (x : ℚ) : within x lo hi = max lo (min x hi) := by
  rw [within_eq, min_max_distrib_right, min_eq_left h, max_comm]

/-- Clamping leaves a number alone exactly when the range holds it. -/
theorem max_min_eq_self_iff (h : lo ≤ hi) : max lo (min x hi) = x ↔ lo ≤ x ∧ x ≤ hi := by
  constructor
  · intro h_eq
    rw [← h_eq]
    exact ⟨le_max_left _ _, max_le h (min_le_right _ _)⟩
  · rintro ⟨h_lo, h_hi⟩
    rw [min_eq_left h_hi, max_eq_right h_lo]

/-- A range that is empty has one value left, its upper end. -/
theorem within_of_lt (h : hi < lo) (x : ℚ) : within x lo hi = hi := by
  rw [within_eq, min_eq_right]
  exact h.le.trans (le_max_right x lo)

/-! ### Whole numbers -/

theorem roundWhole_of_nonneg (h : 0 ≤ x) : Exact.roundWhole x = ⌊x + 1 / 2⌋ :=
  if_neg (not_lt.mpr h)

theorem roundWhole_of_neg (h : x < 0) : Exact.roundWhole x = -((⌊-x + 1 / 2⌋ : ℤ) : ℚ) :=
  if_pos h

theorem roundWhole_intCast (n : ℤ) : Exact.roundWhole n = n := by
  rcases le_or_gt (0 : ℚ) n with h | h
  · rw [roundWhole_of_nonneg h, Int.floor_intCast_add]
    norm_num
  · rw [roundWhole_of_neg h, ← Int.cast_neg n, Int.floor_intCast_add]
    norm_num

theorem exists_roundWhole_eq (x : ℚ) : ∃ n : ℤ, Exact.roundWhole x = n := by
  rcases le_or_gt 0 x with h | h
  · exact ⟨_, roundWhole_of_nonneg h⟩
  · exact ⟨-⌊-x + 1 / 2⌋, by rw [roundWhole_of_neg h, Int.cast_neg]⟩

theorem roundWhole_neg (x : ℚ) : Exact.roundWhole (-x) = -Exact.roundWhole x := by
  rcases lt_trichotomy x 0 with h | rfl | h
  · rw [roundWhole_of_neg h, roundWhole_of_nonneg (by linarith), neg_neg]
  · norm_num [roundWhole_of_nonneg le_rfl]
  · rw [roundWhole_of_nonneg h.le, roundWhole_of_neg (by linarith), neg_neg]

theorem monotone_roundWhole : Monotone Exact.roundWhole := by
  intro x y h
  -- each sign has a rounding of its own, so the two numbers are compared sign by sign
  rcases le_or_gt 0 x with hx | hx
  · rw [roundWhole_of_nonneg hx, roundWhole_of_nonneg (hx.trans h)]
    exact_mod_cast Int.floor_mono (by linarith)
  · rw [roundWhole_of_neg hx]
    rcases le_or_gt 0 y with hy | hy
    · -- below zero nothing is rounded above zero, and the other way round
      rw [roundWhole_of_nonneg hy]
      have hx' : 0 ≤ ⌊-x + 1 / 2⌋ := Int.floor_nonneg.mpr (by linarith)
      have hy' : 0 ≤ ⌊y + 1 / 2⌋ := Int.floor_nonneg.mpr (by linarith)
      exact_mod_cast (neg_nonpos.mpr hx').trans hy'
    · rw [roundWhole_of_neg hy]
      exact neg_le_neg (by exact_mod_cast Int.floor_mono (by linarith))

theorem roundWhole_add_one (h : 0 ≤ x) : Exact.roundWhole (x + 1) = Exact.roundWhole x + 1 := by
  rw [roundWhole_of_nonneg h, roundWhole_of_nonneg (by linarith), add_right_comm, Int.floor_add_one]
  push_cast
  rfl

theorem roundWhole_add_intCast {n : ℤ} (h : 0 ≤ x) (h_sum : 0 ≤ x + n) :
    Exact.roundWhole (x + n) = Exact.roundWhole x + n := by
  rw [roundWhole_of_nonneg h, roundWhole_of_nonneg h_sum, add_right_comm, Int.floor_add_intCast]
  push_cast
  rfl

theorem abs_roundWhole_sub_le (x : ℚ) : |Exact.roundWhole x - x| ≤ 1 / 2 := by
  rcases le_or_gt 0 x with h | h
  · rw [roundWhole_of_nonneg h, abs_le]
    have h_le := Int.floor_le (x + 1 / 2)
    have h_lt := Int.lt_floor_add_one (x + 1 / 2)
    constructor <;> linarith
  · rw [roundWhole_of_neg h, abs_le]
    have h_le := Int.floor_le (-x + 1 / 2)
    have h_lt := Int.lt_floor_add_one (-x + 1 / 2)
    constructor <;> linarith

/-- Rounding does not lead out of the numbers that are no more than zero. -/
theorem roundWhole_nonpos (h : x ≤ 0) : Exact.roundWhole x ≤ 0 := by
  have h_zero : Exact.roundWhole 0 = 0 := by exact_mod_cast roundWhole_intCast 0
  exact h_zero ▸ monotone_roundWhole h

/-- What is nearer to a whole number than a half is rounded to it. -/
theorem roundWhole_eq_natCast {n : ℕ} (h : |x - n| < 1 / 2) : Exact.roundWhole x = n := by
  obtain ⟨m, h_m⟩ := exists_roundWhole_eq x
  have h_near := abs_roundWhole_sub_le x
  rw [h_m] at h_near ⊢
  -- two whole numbers that are less than one apart are the same
  have h_apart : |((m - n : ℤ) : ℚ)| < 1 := by
    push_cast
    calc |(m : ℚ) - n| ≤ |(m : ℚ) - x| + |x - n| := abs_sub_le _ _ _
      _ < 1 / 2 + 1 / 2 := add_lt_add_of_le_of_lt h_near h
      _ = 1 := by norm_num
  have h_same : m - n = 0 := Int.abs_lt_one_iff.mp (by exact_mod_cast h_apart)
  rw [sub_eq_zero.mp h_same, Int.cast_natCast]

/-! ### Thousandths -/

/-- A whole number of thousandths. -/
def IsMilli (x : ℚ) : Prop := ∃ n : ℤ, x = n / 1000

theorem isMilli_zero : IsMilli 0 := ⟨0, by norm_num⟩

theorem isMilli_natCast (n : ℕ) : IsMilli n := ⟨n * 1000, by push_cast; ring⟩

theorem IsMilli.add (hx : IsMilli x) (hy : IsMilli y) : IsMilli (x + y) := by
  obtain ⟨m, rfl⟩ := hx
  obtain ⟨n, rfl⟩ := hy
  exact ⟨m + n, by push_cast; ring⟩

theorem IsMilli.sub (hx : IsMilli x) (hy : IsMilli y) : IsMilli (x - y) := by
  obtain ⟨m, rfl⟩ := hx
  obtain ⟨n, rfl⟩ := hy
  exact ⟨m - n, by push_cast; ring⟩

theorem IsMilli.max (hx : IsMilli x) (hy : IsMilli y) : IsMilli (max x y) := by
  rcases max_choice x y with h | h <;> rwa [h]

theorem IsMilli.min (hx : IsMilli x) (hy : IsMilli y) : IsMilli (min x y) := by
  rcases min_choice x y with h | h <;> rwa [h]

/-- Thousandths that are out of order are so by a thousandth at least. -/
theorem IsMilli.le_of_lt_add (hx : IsMilli x) (hy : IsMilli y) (h : x < y + 1 / 1000) : x ≤ y := by
  obtain ⟨m, rfl⟩ := hx
  obtain ⟨n, rfl⟩ := hy
  have h_lt : (m : ℚ) < n + 1 := by linarith
  have h_le : m ≤ n := Int.lt_add_one_iff.mp (by exact_mod_cast h_lt)
  exact div_le_div_of_nonneg_right (Int.cast_le.mpr h_le) (by norm_num)

theorem IsMilli.of_half (h : IsMilli (x / 2)) : IsMilli x := by
  obtain ⟨n, hn⟩ := h
  refine ⟨2 * n, ?_⟩
  push_cast
  linarith

/-- Half of a multiple of two thousandths is a whole number of thousandths. -/
theorem isMilli_half (h : ∃ n : ℤ, x = n * 0.002) : IsMilli (x / 2) := by
  obtain ⟨n, rfl⟩ := h
  exact ⟨n, by ring⟩

/-- There is only one zero to return. -/
theorem roundMilli_eq (x : ℚ) : roundMilli x = Exact.roundWhole (x * 1000) / 1000 := by
  have h_thousand : (1000.0 : ℚ) = 1000 := by norm_num
  change (if (Exact.roundWhole (x * 1000.0) / 1000.0 == 0) then (0 : ℚ)
    else Exact.roundWhole (x * 1000.0) / 1000.0) = _
  rw [h_thousand]
  split
  · next h => exact (eq_of_beq h).symm
  · rfl

theorem isMilli_roundMilli (x : ℚ) : IsMilli (roundMilli x) := by
  obtain ⟨n, hn⟩ := exists_roundWhole_eq (x * 1000)
  exact ⟨n, by rw [roundMilli_eq, hn]⟩

theorem roundMilli_eq_self (h : IsMilli x) : roundMilli x = x := by
  obtain ⟨n, rfl⟩ := h
  rw [roundMilli_eq, div_mul_cancel₀ _ (by norm_num), roundWhole_intCast]

theorem roundMilli_roundMilli (x : ℚ) : roundMilli (roundMilli x) = roundMilli x :=
  roundMilli_eq_self (isMilli_roundMilli x)

theorem monotone_roundMilli : Monotone (roundMilli : ℚ → ℚ) := by
  intro x y h
  rw [roundMilli_eq, roundMilli_eq]
  have h_whole := monotone_roundWhole (mul_le_mul_of_nonneg_right h (by norm_num : (0 : ℚ) ≤ 1000))
  exact div_le_div_of_nonneg_right h_whole (by norm_num)

/-- Numbers that are a thousandth apart are not rounded together. -/
theorem roundMilli_lt_roundMilli (h : 0 ≤ x) (h_le : x + 1 / 1000 ≤ y) :
    roundMilli x < roundMilli y := by
  rw [roundMilli_eq, roundMilli_eq]
  refine div_lt_div_of_pos_right ?_ (by norm_num)
  -- among whole numbers the second one is at least the next
  have h_next : x * 1000 + 1 ≤ y * 1000 := by linarith
  calc Exact.roundWhole (x * 1000) < Exact.roundWhole (x * 1000) + 1 := lt_add_one _
    _ = Exact.roundWhole (x * 1000 + 1) := (roundWhole_add_one (by positivity)).symm
    _ ≤ Exact.roundWhole (y * 1000) := monotone_roundWhole h_next

/-- Thousandths can be taken out of a sum that is rounded, as long as nothing is negative: below
zero a half is rounded the other way. -/
theorem roundMilli_add (hx : 0 ≤ x) (hy : 0 ≤ y) (h_milli : IsMilli y) :
    roundMilli (x + y) = roundMilli x + y := by
  obtain ⟨n, rfl⟩ := h_milli
  have h_thousand : (x + n / 1000) * 1000 = x * 1000 + n := by ring
  rw [roundMilli_eq, roundMilli_eq, h_thousand,
    roundWhole_add_intCast (by linarith) (by linarith), add_div]

/-- Rounding does not pass a thousandth on its way up. -/
theorem roundMilli_le (h_hi : IsMilli hi) (h : x ≤ hi) : roundMilli x ≤ hi :=
  calc roundMilli x ≤ roundMilli hi := monotone_roundMilli h
    _ = hi := roundMilli_eq_self h_hi

theorem le_roundMilli (h_lo : IsMilli lo) (h : lo ≤ x) : lo ≤ roundMilli x :=
  calc lo = roundMilli lo := (roundMilli_eq_self h_lo).symm
    _ ≤ roundMilli x := monotone_roundMilli h

theorem abs_roundMilli_sub_le (x : ℚ) : |roundMilli x - x| ≤ 1 / 2000 := by
  -- the error among whole numbers, a thousand times smaller
  have h_eq : roundMilli x - x = (Exact.roundWhole (x * 1000) - x * 1000) / 1000 := by
    rw [roundMilli_eq]
    ring
  rw [h_eq, abs_div, abs_of_pos (by norm_num : (0 : ℚ) < 1000)]
  have h_le := abs_roundWhole_sub_le (x * 1000)
  linarith

theorem roundMilli_nonneg (h : 0 ≤ x) : 0 ≤ roundMilli x :=
  calc (0 : ℚ) = roundMilli 0 := (roundMilli_eq_self isMilli_zero).symm
    _ ≤ roundMilli x := monotone_roundMilli h

/-- What is less than half a thousandth is rounded away. -/
theorem roundMilli_pos_iff : 0 < roundMilli x ↔ 1 / 2000 ≤ x := by
  constructor
  · intro h_pos
    by_contra h_small
    -- there is no thousandth strictly between zero and the first one
    obtain ⟨n, hn⟩ := isMilli_roundMilli x
    have h_near := (abs_le.mp (abs_roundMilli_sub_le x)).2
    rw [hn] at h_pos h_near
    have h_zero : (0 : ℚ) < n := by linarith
    have h_one : (n : ℚ) < 1 := by linarith
    norm_cast at h_zero h_one
    omega
  · intro h
    have h_half : roundMilli (1 / 2000 : ℚ) = 1 / 1000 := by decide +kernel
    calc (0 : ℚ) < 1 / 1000 := by norm_num
      _ = roundMilli (1 / 2000) := h_half.symm
      _ ≤ roundMilli x := monotone_roundMilli h

/-! ### Clamping and rounding -/

/-- Clamping a number that has been clamped and rounded before, and rounding it again, changes
nothing. Where rounding took it out of the range, it comes back to the end it left by. -/
theorem roundMilli_within_roundMilli_within (x lo hi : ℚ) :
    roundMilli (within (roundMilli (within x lo hi)) lo hi) = roundMilli (within x lo hi) := by
  rcases lt_or_ge hi lo with h | h
  · -- an empty range has one value to give, twice
    rw [within_of_lt h, within_of_lt h]
  · have h_lo := monotone_roundMilli (le_within h x)
    have h_hi := monotone_roundMilli (within_le x lo hi)
    rcases lt_or_ge (roundMilli (within x lo hi)) lo with h_low | h_low
    · -- rounded below the lower end, as the lower end itself is
      rw [within_eq, max_eq_right h_low.le, min_eq_left h]
      refine le_antisymm h_lo ?_
      calc roundMilli (within x lo hi)
          = roundMilli (roundMilli (within x lo hi)) := (roundMilli_roundMilli _).symm
        _ ≤ roundMilli lo := monotone_roundMilli h_low.le
    · rcases lt_or_ge hi (roundMilli (within x lo hi)) with h_high | h_high
      · -- rounded above the upper end, likewise
        rw [within_eq, max_eq_left h_low, min_eq_right h_high.le]
        refine le_antisymm ?_ h_hi
        calc roundMilli hi ≤ roundMilli (roundMilli (within x lo hi)) :=
              monotone_roundMilli h_high.le
          _ = roundMilli (within x lo hi) := roundMilli_roundMilli _
      · rw [within_eq_self h_low h_high, roundMilli_roundMilli]

/-- Between two thousandths, rounding stays between them. -/
theorem roundMilli_within_mem (h_lo : IsMilli lo) (h_hi : IsMilli hi) (h : lo ≤ hi) (x : ℚ) :
    lo ≤ roundMilli (within x lo hi) ∧ roundMilli (within x lo hi) ≤ hi :=
  ⟨le_roundMilli h_lo (le_within h x), roundMilli_le h_hi (within_le x lo hi)⟩

/-- Half a thousandth is all that rounding moves a number that was clamped. -/
theorem abs_roundMilli_within_sub_le (h : lo ≤ hi) (x : ℚ) :
    |roundMilli (within x lo hi) - max lo (min x hi)| ≤ 1 / 2000 := by
  rw [← within_eq_max h]
  exact abs_roundMilli_sub_le _

/-- A thousandth that is clamped between thousandths is not rounded at all. -/
theorem roundMilli_within_of_isMilli (hx : IsMilli x) (h_lo : IsMilli lo) (h_hi : IsMilli hi)
    (h : lo ≤ hi) : roundMilli (within x lo hi) = max lo (min x hi) := by
  rw [within_eq_max h]
  exact roundMilli_eq_self (h_lo.max (hx.min h_hi))

end ClipEdit.Exact
