import ClipEdit.Proofs.Scalar.Milli
import ClipEdit.Scalar.Extended

/-!
# Clamping what may be no number

Among finite numbers extended scalars are the exact ones: `finite` goes through every operation that
overlays are brought into a frame with (`finite_sub`, `finite_div`, `atLeast_finite`,
`roundMilli_finite`).

Anything else is gone once it has been clamped between two finite ends. Raising it first and
lowering it then lets a non-number go to the lower end, the one it is compared with first, and the
infinities go to the ends they lie beyond. So a clamped value is the same as if a number had been
given in its place (`Extended.standIn`, `within_finite`).
-/

namespace ClipEdit.Extended

open Scalar

variable {p q : ℚ}

/-! ### Finite numbers -/

theorem finite_sub (p q : ℚ) : (finite p - finite q : Extended) = finite (p - q) := by
  change finite (p + -q) = finite (p - q)
  rw [sub_eq_add_neg]

theorem finite_div (p : ℚ) (hq : q ≠ 0) : (finite p / finite q : Extended) = finite (p / q) :=
  if_neg hq

theorem finite_lt_finite : (finite p : Extended) < finite q ↔ p < q := decide_eq_true_iff

theorem finite_beq_finite (p q : ℚ) : (finite p == finite q) = (p == q) := by
  change (finite p ≠ nan && finite p = finite q : Bool) = (p == q)
  simp [beq_eq_decide]

theorem atLeast_finite (p q : ℚ) :
    atLeast (finite p : Extended) (finite q) = finite (atLeast p q) := by
  unfold atLeast
  simp only [finite_lt_finite, finite_beq_finite]
  split_ifs <;> rfl

theorem atMost_finite (p q : ℚ) :
    atMost (finite p : Extended) (finite q) = finite (atMost p q) := by
  unfold atMost
  simp only [finite_lt_finite, finite_beq_finite]
  split_ifs <;> rfl

theorem roundMilli_finite (q : ℚ) : roundMilli (finite q) = finite (roundMilli q) := by
  have h_thousand : (1000.0 : ℚ) ≠ 0 := by norm_num
  have h_rounded : Scalar.roundWhole (finite q * 1000.0 : Extended) / 1000.0 =
      finite (Scalar.roundWhole (q * 1000.0) / 1000.0) := finite_div _ h_thousand
  unfold roundMilli
  rw [h_rounded]
  dsimp only
  change (if (finite _ == finite 0) = true then finite 0 else finite _) = _
  rw [finite_beq_finite]
  split_ifs <;> rfl

/-! ### Clamping -/

/-- **The number that a value counts for** between two ends. -/
def standIn (lo hi : ℚ) : Extended → ℚ
  | nan => lo
  | infinite negative => if negative then lo else hi
  | finite q => q

/-- **Between two finite ends everything is finite**, and what it is can be said in exact
arithmetic. -/
theorem within_finite (x : Extended) (lo hi : ℚ) :
    within x (finite lo) (finite hi) = finite (within (x.standIn lo hi) lo hi) := by
  -- a value that is raised to the lower end at once is clamped as the lower end itself
  have h_low : atMost (finite lo : Extended) (finite hi) = finite (within lo lo hi) := by
    rw [atMost_finite, within, Exact.atLeast_eq_max, max_self]
  cases x with
  | nan => exact h_low
  | infinite negative =>
    cases negative with
    | true => exact h_low
    | false =>
      -- raising leaves it, and it is above the upper end
      change finite hi = finite (within hi lo hi)
      rw [Exact.within_eq, min_eq_right (le_max_left hi lo)]
  | finite q =>
    change atMost (atLeast (finite q : Extended) (finite lo)) (finite hi) = finite (within q lo hi)
    rw [atLeast_finite, atMost_finite, within]

/-- The same for what is settled between the ends, clamped and rounded. -/
theorem roundMilli_within (x : Extended) (lo hi : ℚ) :
    roundMilli (within x (finite lo) (finite hi)) =
      finite (roundMilli (within (x.standIn lo hi) lo hi)) := by
  rw [within_finite, roundMilli_finite]

end ClipEdit.Extended
