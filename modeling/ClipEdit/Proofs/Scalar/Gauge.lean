import ClipEdit.Scalar.Binary64
import ClipEdit.Scalar.Exact
import ClipEdit.Proofs.Scalar.Value

/-!
# Gauges

The theory of timelines is written once for all scalars. What it needs to know about a scalar type
is that its numbers can be read as rationals: a `Gauge` gives every scalar a rational `value`, says
which scalars are numbers (`IsNumber`), and ties comparisons to values. Subtraction may round, and
the gauge promises no more of it than the editor relies on:

* the difference of a finite number and a number is a number, and taking something positive away
  does not make it larger (`value_sub_le`);
* the distance of two finite numbers is a number, does not depend on their order
  (`magnitude_sub_comm`) and is zero between equal ones (`value_sub_eq_zero`).

Binary64 numbers have a gauge because rounding never crosses a number (`Binary64.sub_faithful`);
rational numbers are their own gauge.
-/

namespace ClipEdit.Scalar

/-- **A gauge**: a reading of scalars as rational numbers that comparisons agree with. -/
class Gauge (α : Type) [Scalar α] where
  /-- The rational number that a scalar stands for. -/
  value : α → ℚ
  /-- Every scalar but a non-number. -/
  IsNumber : α → Prop
  lt_iff {x y : α} : x < y ↔ IsNumber x ∧ IsNumber y ∧ value x < value y
  le_iff {x y : α} : x ≤ y ↔ IsNumber x ∧ IsNumber y ∧ value x ≤ value y
  beq_iff {x y : α} : (x == y) = true ↔ IsNumber x ∧ IsNumber y ∧ value x = value y
  isNumber_of_isFinite {x : α} : isFinite x = true → IsNumber x
  isFinite_zero : isFinite (0 : α) = true
  value_zero : value (0 : α) = 0
  isFinite_one : isFinite (1.0 : α) = true
  zero_lt_one : (0 : α) < 1.0
  isNumber_sub {x y : α} : isFinite x = true → IsNumber y → IsNumber (x - y)
  value_sub_le {x y : α} : isFinite x = true → 0 < y → value (x - y) ≤ value x
  value_sub_eq_zero {x y : α} :
    isFinite x = true → isFinite y = true → value x = value y → value (x - y) = 0
  isNumber_magnitude {x : α} : IsNumber x → IsNumber (magnitude x)
  value_magnitude (x : α) : value (magnitude x) = |value x|
  magnitude_sub_comm {x y : α} :
    isFinite x = true → isFinite y = true → magnitude (x - y) = magnitude (y - x)

/-! ### Order -/

namespace Gauge

variable {α : Type} [Scalar α] [Gauge α] {x y z : α}

theorem isNumber_zero : IsNumber (0 : α) := isNumber_of_isFinite isFinite_zero

theorem isNumber_left_of_lt (h : x < y) : IsNumber x := (lt_iff.mp h).1

theorem isNumber_right_of_lt (h : x < y) : IsNumber y := (lt_iff.mp h).2.1

theorem value_lt_of_lt (h : x < y) : value x < value y := (lt_iff.mp h).2.2

theorem value_le_of_le (h : x ≤ y) : value x ≤ value y := (le_iff.mp h).2.2

protected theorem lt_trans (hxy : x < y) (hyz : y < z) : x < z :=
  lt_iff.mpr ⟨isNumber_left_of_lt hxy, isNumber_right_of_lt hyz,
    (value_lt_of_lt hxy).trans (value_lt_of_lt hyz)⟩

protected theorem le_refl (hx : IsNumber x) : x ≤ x := le_iff.mpr ⟨hx, hx, le_rfl⟩

protected theorem le_trans (hxy : x ≤ y) (hyz : y ≤ z) : x ≤ z :=
  le_iff.mpr ⟨(le_iff.mp hxy).1, (le_iff.mp hyz).2.1,
    (value_le_of_le hxy).trans (value_le_of_le hyz)⟩

protected theorem le_of_lt (hxy : x < y) : x ≤ y :=
  le_iff.mpr ⟨isNumber_left_of_lt hxy, isNumber_right_of_lt hxy, (value_lt_of_lt hxy).le⟩

protected theorem lt_of_lt_of_le (hxy : x < y) (hyz : y ≤ z) : x < z :=
  lt_iff.mpr ⟨isNumber_left_of_lt hxy, (le_iff.mp hyz).2.1,
    (value_lt_of_lt hxy).trans_le (value_le_of_le hyz)⟩

/-- Between numbers, one order fails exactly where the other one holds. -/
protected theorem not_le (hx : IsNumber x) (hy : IsNumber y) : ¬ x ≤ y ↔ y < x := by
  rw [le_iff, lt_iff]
  simp [hx, hy]

protected theorem not_lt (hx : IsNumber x) (hy : IsNumber y) : ¬ x < y ↔ y ≤ x := by
  rw [le_iff, lt_iff]
  simp [hx, hy]

/-- A number equals itself, as the editor compares numbers. -/
protected theorem beq_self (hx : IsNumber x) : (x == x) = true := beq_iff.mpr ⟨hx, hx, rfl⟩

/-- A number does not equal a larger one. -/
protected theorem beq_eq_false_of_lt (h : x < y) : (x == y) = false := by
  rw [Bool.eq_false_iff]
  intro h_eq
  exact absurd (beq_iff.mp h_eq).2.2 (value_lt_of_lt h).ne

protected theorem beq_eq_false_of_gt (h : y < x) : (x == y) = false := by
  rw [Bool.eq_false_iff]
  intro h_eq
  exact absurd (beq_iff.mp h_eq).2.2 (value_lt_of_lt h).ne'

/-! ### Choices -/

theorem isNumber_atLeast {lo : α} (h_lo : IsNumber lo) (x : α) :
    IsNumber (atLeast x lo) ∧ value lo ≤ value (atLeast x lo) ∧
      (IsNumber x → value (atLeast x lo) = max (value x) (value lo)) := by
  unfold atLeast
  split
  · next h => exact ⟨h_lo, le_rfl, fun _ => (max_eq_right (value_lt_of_lt h).le).symm⟩
  · next h =>
    split
    · next h_self =>
      have h_num := (beq_iff.mp h_self).1
      have h_le := value_le_of_le ((Gauge.not_lt h_num h_lo).mp h)
      exact ⟨h_num, h_le, fun _ => (max_eq_left h_le).symm⟩
    · next h_self => exact ⟨h_lo, le_rfl, fun h_num => absurd (Gauge.beq_self h_num) h_self⟩

theorem isNumber_atMost {hi : α} (h_hi : IsNumber hi) (h_x : IsNumber x) :
    IsNumber (atMost x hi) ∧ value (atMost x hi) = min (value x) (value hi) := by
  unfold atMost
  split
  · next h => exact ⟨h_hi, (min_eq_right (value_lt_of_lt h).le).symm⟩
  · next h =>
    rw [if_pos (Gauge.beq_self h_x)]
    exact ⟨h_x, (min_eq_left (value_le_of_le ((Gauge.not_lt h_hi h_x).mp h))).symm⟩

/-- **Between two numbers everything is a number**, whatever was to be brought there: not above the
upper one, and not below the lower one unless that is above the upper one. -/
theorem isNumber_within {lo hi : α} (h_lo : IsNumber lo) (h_hi : IsNumber hi) (x : α) :
    IsNumber (within x lo hi) ∧ min (value lo) (value hi) ≤ value (within x lo hi) ∧
      value (within x lo hi) ≤ value hi := by
  obtain ⟨h_raised, h_le, -⟩ := isNumber_atLeast h_lo x
  obtain ⟨h_num, h_value⟩ := isNumber_atMost h_hi h_raised
  unfold within
  rw [h_value]
  exact ⟨h_num, min_le_min_right _ h_le, min_le_right _ _⟩

/-! ### Differences -/

/-- What is below a finite number less something positive is below that number. -/
theorem lt_of_lt_sub (hx : isFinite x = true) (hy : 0 < y) (h : z < x - y) : z < x :=
  lt_iff.mpr ⟨isNumber_left_of_lt h, isNumber_of_isFinite hx,
    lt_of_lt_of_le (value_lt_of_lt h) (value_sub_le hx hy)⟩

/-- The distance of two finite numbers is a number. -/
theorem isNumber_distance (hx : isFinite x = true) (hy : isFinite y = true) :
    IsNumber (magnitude (x - y)) :=
  isNumber_magnitude (isNumber_sub hx (isNumber_of_isFinite hy))

/-- Two finite numbers of the same value have a distance below every positive number. -/
theorem distance_lt (hx : isFinite x = true) (hy : isFinite y = true) (h : value x = value y)
    (hz : 0 < z) : magnitude (x - y) < z := by
  refine lt_iff.mpr ⟨isNumber_distance hx hy, isNumber_right_of_lt hz, ?_⟩
  have h_pos := value_lt_of_lt hz
  rw [value_zero] at h_pos
  rw [value_magnitude, value_sub_eq_zero hx hy h, abs_zero]
  exact h_pos

/-- Two finite numbers that keep a distance have different values. -/
theorem value_ne_of_le_distance (hx : isFinite x = true) (hy : isFinite y = true) (hz : 0 < z)
    (h : z ≤ magnitude (x - y)) : value x ≠ value y := by
  intro h_eq
  have h_near := distance_lt hx hy h_eq hz
  exact (Gauge.not_lt (isNumber_left_of_lt h_near) (isNumber_right_of_lt h_near)).mpr h h_near

end Gauge

/-! ### The two gauges -/

section Binary64

open Binary64 Float.Model

/-- **The gauge of binary64 numbers.** The infinities are numbers, worth `± 2^1024`. -/
instance : Gauge Float where
  value x := Binary64.value (parts x)
  IsNumber x := parts x ≠ .notANumber
  lt_iff := lt_iff_value_lt
  le_iff := le_iff_value_le
  beq_iff := beq_iff_value_eq
  isNumber_of_isFinite {x} h := ((Binary64.isFinite_iff (inFormat_parts x)).mp h).1
  isFinite_zero := by decide
  value_zero := Binary64.value_zero .positive
  isFinite_one := by decide
  zero_lt_one := by decide
  isNumber_sub := sub_isNumber
  -- rounding does not carry a difference past the number that something is taken from
  value_sub_le hx hy := Binary64.value_sub_le hx (lt_iff_value_lt.mp hy).2.1
    (lt_of_eq_of_lt (Binary64.value_zero .positive).symm (lt_iff_value_lt.mp hy).2.2)
  value_sub_eq_zero := Binary64.value_sub_eq_zero
  isNumber_magnitude {x} hx := by
    change parts x.abs ≠ .notANumber
    rw [parts_abs]
    exact abs_ne_notANumber hx
  value_magnitude x := by
    change Binary64.value (parts x.abs) = _
    rw [parts_abs, value_abs]
  magnitude_sub_comm := abs_sub_comm_of_isFinite

end Binary64

/-- The distance of a rational number from zero is its absolute value. -/
theorem Exact.magnitude_eq_abs (x : Rat) : magnitude x = |x| := by
  change (if x < 0 then -x else x) = |x|
  split
  · next h => exact (abs_of_neg h).symm
  · next h => exact (abs_of_nonneg (le_of_not_gt h)).symm

/-- **The gauge of rational numbers**: every one is a number, and its own value. -/
instance : Gauge Rat where
  value x := x
  IsNumber _ := True
  lt_iff := by
    intro x y
    simp
  le_iff := by simp
  beq_iff := by simp
  isNumber_of_isFinite := fun _ => trivial
  isFinite_zero := rfl
  value_zero := rfl
  isFinite_one := rfl
  zero_lt_one := by
    change (0 : ℚ) < 1.0
    norm_num
  isNumber_sub := fun _ _ => trivial
  value_sub_le {x y} _ hy := (sub_lt_self x (show (0 : ℚ) < y from hy)).le
  value_sub_eq_zero _ _ h := sub_eq_zero.mpr h
  isNumber_magnitude := fun _ => trivial
  value_magnitude := Exact.magnitude_eq_abs
  magnitude_sub_comm {x y} _ _ := by
    rw [Exact.magnitude_eq_abs, Exact.magnitude_eq_abs]
    exact abs_sub_comm x y

end ClipEdit.Scalar
